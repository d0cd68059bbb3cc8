import Workflow.Proofs.Except
import Workflow.Template

/-!
# Where readers fail

A reader of a tag leaves lexemes of those that it was given. Where it fails, the tag is malformed, or it came to a lexeme
that cannot be read, and its fault is the fault of that lexeme.
-/

namespace Workflow.Template

/-- What is read of these lexemes meets `P`, and what fails fails for the tag or for one of the lexemes. -/
def Answers {α : Type} (ts : List Lexeme) (P : α → Prop) (x : Except TemplateFault α) : Prop :=
  (∀ a, x = .ok a → P a) ∧ ∀ f, x = .error f → f = .malformed ∨ .stop f ∈ ts

def Takes {α : Type} (r : Reader α) : Prop := ∀ ts, Answers ts (fun x => x.2 ⊆ ts) (r ts)

section
variable {α β : Type} {ts us : List Lexeme} {P : α → Prop}

namespace Answers

theorem ok {a : α} (h : P a) : Answers ts P (.ok a) :=
  ⟨fun b hb => by
    cases hb
    exact h, nofun⟩

theorem read {a : α} (h : us ⊆ ts) : Answers ts (fun x : α × List Lexeme => x.2 ⊆ ts) (.ok (a, us)) := .ok h

theorem malformed : Answers ts P (.error .malformed) :=
  ⟨nofun, fun f hf => by
    cases hf
    exact .inl rfl⟩

theorem stop {f : TemplateFault} (h : .stop f ∈ ts) : Answers ts P (.error f) :=
  ⟨nofun, fun g hg => by
    cases hg
    exact .inr h⟩

theorem failAt (h : us ⊆ ts) : Answers ts P (failAt us) := by
  unfold Template.failAt
  split
  · exact .stop (h List.mem_cons_self)
  · exact .malformed

theorem mono {x : Except TemplateFault α} {Q : α → Prop} (h : Answers us Q x) (hs : us ⊆ ts) (hP : ∀ a, Q a → P a) :
    Answers ts P x :=
  ⟨fun a ha => hP a (h.1 a ha), fun f hf => (h.2 f hf).imp id fun hm => hs hm⟩

theorem bind {x : Except TemplateFault β} {f : β → Except TemplateFault α} {Q : β → Prop} (h : Answers ts Q x)
    (hf : ∀ b, Q b → Answers ts P (f b)) : Answers ts P (x >>= f) := by
  cases x with
  | error g => exact ⟨nofun, fun g' hg => h.2 g' (by simpa using hg)⟩
  | ok b => exact hf b (h.1 b rfl)

theorem map {x : Except TemplateFault β} {f : β → α} {Q : β → Prop} (h : Answers ts Q x) (hf : ∀ b, Q b → P (f b)) :
    Answers ts P (x.map f) := by
  cases x with
  | error g => exact ⟨nofun, fun g' hg => h.2 g' (by simpa [Except.map] using hg)⟩
  | ok b => exact .ok (hf b (h.1 b rfl))

theorem symbol {s : String} (h : us ⊆ ts) : Answers ts (· ⊆ ts) (symbol s us) := by
  unfold Template.symbol
  split
  · split
    · exact .ok (List.subset_of_cons_subset h)
    · exact .malformed
  · exact .failAt h

theorem close (h : us ⊆ ts) : Answers ts (fun _ => True) (close us) := by
  unfold Template.close
  split
  · exact .ok trivial
  · exact .failAt h

end Answers

namespace Takes

variable {r : Reader β}

/-- A reader, and a computation that goes on with what it leaves. -/
theorem bind {f : β × List Lexeme → Except TemplateFault α} (h : Takes r) (hs : us ⊆ ts)
    (hf : ∀ b rest, rest ⊆ ts → Answers ts P (f (b, rest))) : Answers ts P (r us >>= f) :=
  .bind ((h us).mono hs fun _ hx => List.Subset.trans hx hs) fun x hx => hf x.1 x.2 hx

theorem map {f : β × List Lexeme → α × List Lexeme} (h : Takes r) (hs : us ⊆ ts) (hf : ∀ x, (f x).2 = x.2) :
    Answers ts (fun x => x.2 ⊆ ts) ((r us).map f) :=
  .map ((h us).mono hs fun _ hx => List.Subset.trans hx hs) fun x (hx : x.2 ⊆ ts) => (hf x).symm ▸ hx

theorem last (h : Takes r) (hs : us ⊆ ts) : Answers ts (fun x => x.2 ⊆ ts) (r us) :=
  (h us).mono hs fun _ hx => List.Subset.trans hx hs

end Takes

end

/-! ## Expressions -/

theorem dottedName_takes (n : Nat) : Takes (dottedName n) := by
  induction n with
  | zero => exact fun ts => .failAt (List.Subset.refl _)
  | succ n ih =>
    intro ts
    unfold dottedName
    split
    · cases ‹n + 1 = 0›
    · cases ‹n + 1 = _›
      exact ih.bind (by simp) fun _ _ h => .read h
    · exact .read (by simp)
    · exact .failAt (List.Subset.refl _)

theorem adjacentTexts_subset (ts : List Lexeme) : (adjacentTexts ts).2 ⊆ ts := by
  fun_induction adjacentTexts ts with
  | case1 s rest t rest' h ih => exact List.subset_cons_of_subset _ (by simpa [h] using ih)
  | case2 rest => exact List.Subset.refl rest

theorem lastArguments_takes (as : Arguments) : Takes (lastArguments as) := by
  intro ts
  unfold lastArguments
  split
  · exact .read (by simp)
  · exact .read (by simp)
  · exact .failAt (by simp)
  · exact .failAt (by simp)
  · exact .failAt (List.Subset.refl _)

theorem operatorAt?_subset {level : Nat} {ts us : List Lexeme} {op : String} (h : operatorAt? level ts = some (op, us)) :
    us ⊆ ts := by
  unfold operatorAt? at h
  split at h
  · split at h
    · cases h
      simp
    · split at h
      · split at h
        · cases h
          simp
        · cases h
      · cases h
  · rw [Option.ite_none_right_eq_some] at h
    cases h.2
    simp
  · cases h

theorem peeks?_mem {level : Nat} {ts : List Lexeme} {f : TemplateFault} (h : peeks? level ts = some f) : .stop f ∈ ts := by
  unfold peeks? at h
  split at h
  · split at h
    · cases h
      simp
    · cases h
  · cases h

/-- With some fuel, all readers of expressions take lexemes. -/
structure Honest (n : Nat) : Prop where
  expression {conditional : Bool} : Takes (expression n conditional)
  conditionTail {e : Expr} : Takes (conditionTail n e)
  operation {level : Nat} : Takes (operation n level)
  operationTail {level : Nat} {e : Expr} : Takes (operationTail n level e)
  operand {filters : Bool} : Takes (operand n filters)
  primary : Takes (primary n)
  tuple {conditional enclosed : Bool} {enders : List String} : Takes (tuple n conditional enders enclosed)
  tupleTail {conditional : Bool} {enders : List String} {es : List Expr} : Takes (tupleTail n conditional enders es)
  listItems {es : List Expr} : Takes (listItems n es)
  dictEntries {es : List Expr} : Takes (dictEntries n es)
  subscripts {e : Expr} : Takes (subscripts n e)
  indexTail {es : List Expr} : Takes (indexTail n es)
  index : Takes (index n)
  sliceTail {es : List Expr} : Takes (sliceTail n es)
  sliceBound {es : List Expr} : Takes (sliceBound n es)
  arguments {spread : Bool} {as : Arguments} : Takes (arguments n spread as)
  argumentTail {spread : Bool} {as : Arguments} : Takes (argumentTail n spread as)
  filterTail {e : Expr} : Takes (filterTail n e)
  filterName : Takes (filterName n)
  test {e : Expr} : Takes (test n e)

section
variable {n : Nat} {ts : List Lexeme}

theorem expression_takes (ih : Honest n) {conditional : Bool} : Takes (expression (n + 1) conditional) := by
  intro ts
  rw [expression]
  refine ih.operation.bind (List.Subset.refl _) fun e rest h => ?_
  dsimp only
  split
  · exact ih.conditionTail.last h
  · exact .read h

theorem conditionTail_takes (ih : Honest n) {e : Expr} : Takes (conditionTail (n + 1) e) := by
  intro ts
  unfold conditionTail
  split
  · cases ‹n + 1 = 0›
  · cases ‹n + 1 = _›
    refine ih.operation.bind (by simp) fun c rest h => ?_
    dsimp only
    split
    · exact ih.expression.bind (List.subset_of_cons_subset h) fun _ _ h => ih.conditionTail.last h
    · exact ih.conditionTail.last h
  · exact .read (List.Subset.refl _)

theorem operation_takes (ih : Honest n) {level : Nat} : Takes (operation (n + 1) level) := by
  intro ts
  unfold operation
  split
  · exact ih.operand.last (List.Subset.refl _)
  · split
    · split
      · exact ih.operation.bind (by simp) fun _ _ h => .read h
      · exact ih.operation.last (List.Subset.refl _)
    · exact ih.operation.bind (List.Subset.refl _) fun _ _ h => ih.operationTail.last h

theorem operationTail_takes (ih : Honest n) {level : Nat} {e : Expr} : Takes (operationTail (n + 1) level e) := by
  intro ts
  unfold operationTail
  split
  · rename_i op us hop
    exact ih.operation.bind (operatorAt?_subset hop) fun _ _ h => ih.operationTail.last h
  · split
    · exact .stop (peeks?_mem ‹_›)
    · exact .read (List.Subset.refl _)

theorem operand_takes (ih : Honest n) {filters : Bool} : Takes (operand (n + 1) filters) := by
  intro ts
  unfold operand
  extract_lets rest
  have hrest {e : Expr} {us : List Lexeme} (h : us ⊆ ts) : Answers ts (fun x => x.2 ⊆ ts) (rest (e, us)) := by
    refine ih.subscripts.bind h fun e us h => ?_
    dsimp only
    split
    · exact ih.filterTail.last h
    · exact .read h
  split
  · exact .bind (ih.operand.map (by simp) fun _ => rfl) fun _ h => hrest h
  · exact .bind (ih.operand.map (by simp) fun _ => rfl) fun _ h => hrest h
  · exact ih.primary.bind (List.Subset.refl _) fun _ _ h => hrest h

theorem primary_takes (ih : Honest n) : Takes (primary (n + 1)) := by
  intro ts
  unfold primary
  split
  · split
    · exact .read (by simp)
    · exact .read (by simp)
  · exact .read (List.subset_cons_of_subset _ (adjacentTexts_subset _))
  · exact .read (by simp)
  · exact .read (by simp)
  · refine ih.tuple.bind (by simp) fun _ _ h => ?_
    exact .bind (.symbol h) fun _ h => .read h
  · exact ih.listItems.map (by simp) fun _ => rfl
  · exact ih.dictEntries.map (by simp) fun _ => rfl
  · exact .failAt (List.Subset.refl _)

theorem tuple_takes (ih : Honest n) {conditional enclosed : Bool} {enders : List String} :
    Takes (tuple (n + 1) conditional enders enclosed) := by
  intro ts
  unfold tuple
  split
  · split
    · exact .read (List.Subset.refl _)
    · exact .failAt (List.Subset.refl _)
  · refine ih.expression.bind (List.Subset.refl _) fun e rest h => ?_
    dsimp only
    split
    · exact ih.tupleTail.map (List.subset_of_cons_subset h) fun _ => rfl
    · exact .read h

theorem tupleTail_takes (ih : Honest n) {conditional : Bool} {enders : List String} {es : List Expr} :
    Takes (tupleTail (n + 1) conditional enders es) := by
  intro ts
  unfold tupleTail
  split
  · exact .read (List.Subset.refl _)
  · refine ih.expression.bind (List.Subset.refl _) fun e rest h => ?_
    dsimp only
    split
    · exact ih.tupleTail.last (List.subset_of_cons_subset h)
    · exact .read h

theorem listItems_takes (ih : Honest n) {es : List Expr} : Takes (listItems (n + 1) es) := by
  intro ts
  unfold listItems
  split
  · exact .read (by simp)
  · refine ih.expression.bind (List.Subset.refl _) fun e rest h => ?_
    dsimp only
    split
    · exact .read (List.subset_of_cons_subset h)
    · exact ih.listItems.last (List.subset_of_cons_subset h)
    · exact .failAt h

theorem dictEntries_takes (ih : Honest n) {es : List Expr} : Takes (dictEntries (n + 1) es) := by
  intro ts
  unfold dictEntries
  split
  · exact .read (by simp)
  · refine ih.expression.bind (List.Subset.refl _) fun k rest h => ?_
    refine .bind (.symbol h) fun rest h => ?_
    refine ih.expression.bind h fun v rest h => ?_
    dsimp only
    split
    · exact .read (List.subset_of_cons_subset h)
    · exact ih.dictEntries.last (List.subset_of_cons_subset h)
    · exact .failAt h

theorem subscripts_takes (ih : Honest n) {e : Expr} : Takes (subscripts (n + 1) e) := by
  intro ts
  unfold subscripts
  split
  · exact ih.subscripts.last (by simp)
  · exact ih.subscripts.last (by simp)
  · exact .stop (by simp)
  · exact .failAt (by simp)
  · exact ih.subscripts.last (by simp)
  · refine ih.index.bind (by simp) fun i rest h => ?_
    refine ih.indexTail.bind h fun is rest h => ?_
    dsimp only
    split
    · exact ih.subscripts.last h
    · exact ih.subscripts.last h
  · exact ih.arguments.bind (by simp) fun _ _ h => ih.subscripts.last h
  · exact .read (List.Subset.refl _)

theorem indexTail_takes (ih : Honest n) {es : List Expr} : Takes (indexTail (n + 1) es) := by
  intro ts
  unfold indexTail
  split
  · exact .read (by simp)
  · exact ih.index.bind (by simp) fun _ _ h => ih.indexTail.last h
  · exact .failAt (List.Subset.refl _)

theorem index_takes (ih : Honest n) : Takes (index (n + 1)) := by
  intro ts
  unfold index
  dsimp only
  split
  · exact ih.sliceTail.last (by simp)
  · refine ih.expression.bind (List.Subset.refl _) fun e rest h => ?_
    dsimp only
    split
    · exact ih.sliceTail.last (List.subset_of_cons_subset h)
    · exact .read h

theorem sliceTail_takes (ih : Honest n) {es : List Expr} : Takes (sliceTail (n + 1) es) := by
  intro ts
  unfold sliceTail
  extract_lets rest
  have hrest (es : List Expr) {us : List Lexeme} (h : us ⊆ ts) : Answers ts (fun x => x.2 ⊆ ts) (rest (es, us)) := by
    dsimp only [rest]
    split
    · exact ih.sliceBound.bind (List.subset_of_cons_subset h) fun _ _ h => .read h
    · exact .read h
  split
  · exact hrest es (List.Subset.refl _)
  · exact ih.sliceBound.bind (List.Subset.refl _) fun es _ h => hrest es h

theorem sliceBound_takes (ih : Honest n) {es : List Expr} : Takes (sliceBound (n + 1) es) := by
  intro ts
  unfold sliceBound
  split
  · exact .read (List.Subset.refl _)
  · exact .read (List.Subset.refl _)
  · exact ih.expression.map (List.Subset.refl _) fun _ => rfl

theorem arguments_takes (ih : Honest n) {spread : Bool} {as : Arguments} : Takes (arguments (n + 1) spread as) := by
  intro ts
  unfold arguments
  split
  · exact .read (by simp)
  · split
    · exact .malformed
    · exact ih.expression.bind (by simp) fun _ _ h => ih.argumentTail.last h
  · exact ih.expression.bind (by simp) fun _ _ h => (lastArguments_takes _).last h
  · exact ih.expression.bind (by simp) fun _ _ h => ih.argumentTail.last h
  · exact .stop (by simp)
  · split
    · exact .failAt (List.Subset.refl _)
    · exact ih.expression.bind (List.Subset.refl _) fun _ _ h => ih.argumentTail.last h

theorem argumentTail_takes (ih : Honest n) {spread : Bool} {as : Arguments} : Takes (argumentTail (n + 1) spread as) := by
  intro ts
  unfold argumentTail
  split
  · exact .read (by simp)
  · exact ih.arguments.last (by simp)
  · exact .failAt (List.Subset.refl _)

theorem filterTail_takes (ih : Honest n) {e : Expr} : Takes (filterTail (n + 1) e) := by
  intro ts
  unfold filterTail
  split
  · exact ih.filterName.bind (by simp) fun _ _ h => ih.filterTail.last h
  · exact ih.test.bind (by simp) fun _ _ h => ih.filterTail.last h
  · exact ih.arguments.bind (by simp) fun _ _ h => ih.filterTail.last h
  · exact .read (List.Subset.refl _)

theorem filterName_takes (ih : Honest n) : Takes (filterName (n + 1)) := by
  intro ts
  unfold filterName
  refine (dottedName_takes n).bind (List.Subset.refl _) fun name rest h => ?_
  dsimp only
  split
  · exact ih.arguments.bind (List.subset_of_cons_subset h) fun _ _ h => .read h
  · exact .read h

theorem test_takes (ih : Honest n) {e : Expr} : Takes (test (n + 1) e) := by
  intro ts
  unfold test
  split
  rename_i negated us hnot
  have h : us ⊆ ts := by
    split at hnot
    · cases hnot
      exact List.subset_cons_self _ _
    · cases hnot
      exact List.Subset.refl _
  refine (dottedName_takes n).bind h fun name us h => ?_
  dsimp only
  split
  · exact .bind (ih.arguments.map (List.subset_of_cons_subset h) fun _ => rfl) fun _ h => .read h
  · exact .malformed
  · split
    · exact ih.primary.bind h fun _ _ h => ih.subscripts.bind h fun _ _ h => .read h
    · exact .read h

theorem honest (n : Nat) : Honest n := by
  induction n with
  | zero =>
    have h {α : Type} {r : Reader α} (h : ∀ ts, r ts = failAt ts) : Takes r := fun ts => h ts ▸ .failAt (List.Subset.refl ts)
    constructor <;> exact h fun _ => by simp only [expression, conditionTail, operation, operationTail, operand, primary, tuple,
      tupleTail, listItems, dictEntries, subscripts, indexTail, index, sliceTail, sliceBound, arguments, argumentTail,
      filterTail, filterName, test]
  | succ n ih =>
    exact {
      expression := expression_takes ih
      conditionTail := conditionTail_takes ih
      operation := operation_takes ih
      operationTail := operationTail_takes ih
      operand := operand_takes ih
      primary := primary_takes ih
      tuple := tuple_takes ih
      tupleTail := tupleTail_takes ih
      listItems := listItems_takes ih
      dictEntries := dictEntries_takes ih
      subscripts := subscripts_takes ih
      indexTail := indexTail_takes ih
      index := index_takes ih
      sliceTail := sliceTail_takes ih
      sliceBound := sliceBound_takes ih
      arguments := arguments_takes ih
      argumentTail := argumentTail_takes ih
      filterTail := filterTail_takes ih
      filterName := filterName_takes ih
      test := test_takes ih }

end

/-! ## Tags -/

section
variable {n : Nat} {ts us : List Lexeme} {P : Statement → Prop}

theorem wholeExpression_takes : Takes wholeExpression := fun ts => (honest _).expression ts

theorem target_takes {members : Bool} : Takes (target n members) := by
  intro ts
  unfold target
  split
  · split
    · split
      · exact .read fun t ht => by simp [ht]
      · exact .failAt fun t ht => by simp [ht]
    · exact (honest n).primary _
  · exact (honest n).primary _

theorem targets_takes {members : Bool} {enders : List String} : Takes (targets n members enders) := by
  induction n with
  | zero => exact fun ts => .failAt (List.Subset.refl ts)
  | succ n ih =>
    intro ts
    unfold targets
    split
    · exact .failAt (List.Subset.refl _)
    · refine target_takes.bind (List.Subset.refl _) fun e rest h => ?_
      dsimp only
      split
      · split
        · exact .read (List.subset_of_cons_subset h)
        · exact ih.bind (List.subset_of_cons_subset h) fun _ _ h => .read h
      · exact .read h

theorem assigned_answers {members : Bool} {enders : List String} (h : us ⊆ ts) :
    Answers ts (· ⊆ ts) (assigned members enders us) := by
  refine targets_takes.bind h fun es rest h => ?_
  dsimp only
  split
  · exact .ok h
  · exact .failAt h

theorem newName_answers (h : us ⊆ ts) : Answers ts (· ⊆ ts) (newName us) := by
  unfold newName
  split
  · split
    · exact .ok (List.subset_of_cons_subset h)
    · exact .failAt (List.subset_of_cons_subset h)
  · exact .failAt h

theorem sectionEnd_answers (h : us ⊆ ts) : Answers ts (fun _ => True) (sectionEnd us) := by
  unfold sectionEnd
  split
  · exact .close (List.subset_of_cons_subset h)
  · exact .close h

theorem opening_answers {s : Section} (h : us ⊆ ts) : Answers ts (fun _ => True) (opening s us) :=
  .bind (sectionEnd_answers h) fun _ _ => .ok trivial

theorem alone_answers (h : us ⊆ ts) : Answers ts (fun _ => True) (alone us) := .bind (.close h) fun _ _ => .ok trivial

theorem skipWord_subset (word : String) (ts : List Lexeme) : skipWord word ts ⊆ ts := by
  unfold skipWord
  split
  · split
    · simp
    · exact List.Subset.refl _
  · exact List.Subset.refl _

theorem forTag_answers (ts : List Lexeme) : Answers ts (fun _ => True) (forTag ts) := by
  refine .bind (assigned_answers (List.Subset.refl ts)) fun us h => ?_
  split
  · refine (honest _).tuple.bind (List.subset_of_cons_subset h) fun e us h => ?_
    have hopening {us : List Lexeme} (h : us ⊆ ts) : Answers ts (fun _ => True) (opening .loop (skipWord "recursive" us)) :=
      opening_answers (List.Subset.trans (skipWord_subset _ us) h)
    dsimp only
    split
    · exact .bind (.map (wholeExpression_takes.last (List.subset_of_cons_subset h)) fun _ h => h) fun _ h => hopening h
    · exact hopening h
  · exact .failAt h

theorem ifTag_answers {s : Section} (ts : List Lexeme) : Answers ts (fun _ => True) (ifTag s ts) :=
  (honest _).tuple.bind (List.Subset.refl ts) fun _ _ h => opening_answers h

theorem filters_answers (h : us ⊆ ts) : Answers ts (· ⊆ ts) (filters n us) := by
  induction n generalizing us with
  | zero =>
    unfold filters
    exact .ok h
  | succ n ih =>
    unfold filters
    split
    · cases ‹n + 1 = _›
      exact (honest _).filterName.bind (List.subset_of_cons_subset h) fun _ _ h => ih h
    · exact .ok h

theorem setTag_answers (ts : List Lexeme) : Answers ts (fun _ => True) (setTag ts) := by
  refine .bind (assigned_answers (List.Subset.refl ts)) fun us h => ?_
  split
  · exact (honest _).tuple.bind (List.subset_of_cons_subset h) fun _ _ h => alone_answers h
  · exact .bind (filters_answers h) fun _ h => opening_answers h

theorem withTag_answers (h : us ⊆ ts) : Answers ts (fun _ => True) (withTag n us) := by
  induction n generalizing us with
  | zero =>
    unfold withTag
    split
    · exact .ok trivial
    · exact .failAt h
    · cases ‹0 = _›
  | succ n ih =>
    unfold withTag
    split
    · exact .ok trivial
    · cases ‹n + 1 = 0›
    · cases ‹n + 1 = _›
      refine .bind (assigned_answers h) fun us h => .bind (.symbol h) fun us h => ?_
      refine wholeExpression_takes.bind h fun e us h => ?_
      dsimp only
      split
      · exact .malformed
      · exact ih (List.subset_of_cons_subset h)
      · exact .bind (.close h) fun _ _ => .ok trivial

theorem blockTag_answers (ts : List Lexeme) : Answers ts (fun _ => True) (blockTag ts) := by
  unfold blockTag
  split
  · rename_i s us
    have h : skipWord "scoped" us ⊆ .name s :: us := List.Subset.trans (skipWord_subset _ us) (by simp)
    split
    · exact opening_answers (List.subset_of_cons_subset (‹skipWord "scoped" us = _› ▸ h))
    · exact opening_answers h
  · exact .failAt (List.Subset.refl _)

theorem contextNote_answers (h : us ⊆ ts) : Answers ts (fun o => ∀ vs, o = some vs → vs ⊆ ts) (contextNote us) := by
  unfold contextNote
  split
  · refine .ok fun vs hvs => ?_
    split at hvs
    · cases hvs
      exact List.subset_of_cons_subset (List.subset_of_cons_subset h)
    · cases hvs
  · split
    · exact .stop (h (by simp))
    · exact .ok nofun
  · exact .ok nofun

theorem aloneWithNote_answers (h : us ⊆ ts) : Answers ts (fun _ => True) (aloneWithNote us) := by
  refine .bind (contextNote_answers h) fun o ho => alone_answers ?_
  cases o with
  | none => exact h
  | some vs => exact ho vs rfl

theorem includeTag_answers (ts : List Lexeme) : Answers ts (fun _ => True) (includeTag ts) := by
  refine wholeExpression_takes.bind (List.Subset.refl ts) fun e us h => ?_
  dsimp only
  split
  · exact aloneWithNote_answers (List.subset_of_cons_subset (List.subset_of_cons_subset h))
  · exact .failAt (List.subset_of_cons_subset h)
  · exact aloneWithNote_answers h

theorem importTag_answers (ts : List Lexeme) : Answers ts (fun _ => True) (importTag ts) := by
  refine wholeExpression_takes.bind (List.Subset.refl ts) fun e us h => ?_
  dsimp only
  split
  · exact .bind (newName_answers (List.subset_of_cons_subset h)) fun _ h => aloneWithNote_answers h
  · exact .failAt h

theorem importedNames_answers (h : us ⊆ ts) : Answers ts (· ⊆ ts) (importedNames n us) := by
  induction n generalizing us with
  | zero =>
    unfold importedNames
    exact .failAt h
  | succ n ih =>
    unfold importedNames
    split
    · cases ‹n + 1 = 0›
    · cases ‹n + 1 = _›
      refine .bind (contextNote_answers h) fun o ho => ?_
      cases o with
      | some vs => exact .ok (ho vs rfl)
      | none =>
        have h := List.subset_of_cons_subset h
        dsimp -zeta only
        extract_lets rest
        have hrest {us : List Lexeme} (h : us ⊆ ts) : Answers ts (· ⊆ ts) (rest us) := by
          refine .bind (contextNote_answers h) fun o ho => ?_
          cases o with
          | some vs => exact .ok (ho vs rfl)
          | none =>
            dsimp only
            split
            · exact ih (List.subset_of_cons_subset h)
            · exact .ok h
        split
        · exact .failAt h
        · split
          · exact .bind (newName_answers (List.subset_of_cons_subset h)) fun _ h => hrest h
          · exact hrest h
    · exact .failAt h

theorem fromTag_answers (ts : List Lexeme) : Answers ts (fun _ => True) (fromTag ts) := by
  refine wholeExpression_takes.bind (List.Subset.refl ts) fun e us h => ?_
  dsimp only
  split
  · exact .bind (importedNames_answers (List.subset_of_cons_subset h)) fun _ h => alone_answers h
  · exact .failAt h

theorem parameters_answers {defaults : Bool} (h : us ⊆ ts) : Answers ts (· ⊆ ts) (parameters n defaults us) := by
  induction n generalizing us defaults with
  | zero => exact .failAt h
  | succ n ih =>
    unfold parameters
    refine .bind (newName_answers h) fun us h => ?_
    extract_lets rest
    have hrest {defaults : Bool} {us : List Lexeme} (h : us ⊆ ts) : Answers ts (· ⊆ ts) (rest (defaults, us)) := by
      dsimp only [rest]
      split
      · exact .ok (List.subset_of_cons_subset h)
      · exact .bind (.symbol h) fun _ h => ih h
    split
    · exact .bind (wholeExpression_takes.map (List.subset_of_cons_subset h) fun _ => rfl) fun _ h => hrest h
    · split
      · exact .bind (.failAt h) fun _ h => hrest h
      · exact .bind (.read h) fun _ h => hrest h

theorem signature_answers (h : us ⊆ ts) : Answers ts (· ⊆ ts) (signature us) := by
  unfold signature
  split
  · exact .ok (List.subset_of_cons_subset h)
  · exact parameters_answers h

theorem macroTag_answers (ts : List Lexeme) : Answers ts (fun _ => True) (macroTag ts) :=
  .bind (newName_answers (List.Subset.refl ts)) fun _ h => .bind (.symbol h) fun _ h => .bind (signature_answers h) fun _ h =>
    opening_answers h

theorem callTag_answers (ts : List Lexeme) : Answers ts (fun _ => True) (callTag ts) := by
  unfold callTag
  extract_lets rest
  have hrest {us : List Lexeme} (h : us ⊆ ts) : Answers ts (fun _ => True) (rest us) := by
    refine wholeExpression_takes.bind h fun e us h => ?_
    dsimp only
    split
    · exact opening_answers h
    · exact .failAt h
  split
  · exact .bind (signature_answers (by simp)) fun _ h => hrest h
  · exact hrest (List.Subset.refl _)

theorem filterTag_answers (ts : List Lexeme) : Answers ts (fun _ => True) (filterTag ts) :=
  (honest _).filterName.bind (List.Subset.refl ts) fun _ _ h => .bind (filters_answers h) fun _ h => opening_answers h

theorem printed_answers (h : us ⊆ ts) : Answers ts (fun _ => True) (printed n us) := by
  induction n generalizing us with
  | zero =>
    unfold printed
    split
    · exact .ok trivial
    · exact .failAt h
    · cases ‹0 = _›
  | succ n ih =>
    unfold printed
    split
    · exact .ok trivial
    · cases ‹n + 1 = 0›
    · cases ‹n + 1 = _›
      refine wholeExpression_takes.bind h fun e us h => ?_
      dsimp only
      split
      · exact .malformed
      · exact .bind (ih (List.subset_of_cons_subset h)) fun _ _ => .ok trivial
      · exact .bind (.close h) fun _ _ => .ok trivial

theorem statement_answers (ts : List Lexeme) : Answers ts (fun _ => True) (statement ts) := by
  unfold statement
  split
  · rename_i word us
    have hs : us ⊆ .name word :: us := by simp
    have whole {x : Except TemplateFault Statement} (h : Answers us (fun _ => True) x) :
        Answers (.name word :: us) (fun _ => True) x := h.mono hs fun _ h => h
    split
    · exact whole (forTag_answers us)
    · exact whole (ifTag_answers us)
    · exact whole (setTag_answers us)
    · exact withTag_answers hs
    · exact wholeExpression_takes.bind hs fun _ _ h => opening_answers h
    · exact whole (blockTag_answers us)
    · exact wholeExpression_takes.bind hs fun _ _ h => alone_answers h
    · exact whole (includeTag_answers us)
    · exact whole (importTag_answers us)
    · exact whole (fromTag_answers us)
    · exact .map (printed_answers hs) fun _ _ => trivial
    · exact whole (macroTag_answers us)
    · exact whole (callTag_answers us)
    · exact whole (filterTag_answers us)
    · exact .malformed
  · exact .failAt (List.Subset.refl _)

theorem follow_answers {s : Section} {word : String} (ts : List Lexeme) : Answers ts (fun _ => True) (s.follow word ts) := by
  unfold Section.follow
  split
  · exact .map (ifTag_answers ts) fun _ _ => trivial
  · exact .map (sectionEnd_answers (List.Subset.refl ts)) fun _ _ => trivial
  · exact .map (sectionEnd_answers (List.Subset.refl ts)) fun _ _ => trivial
  · split
    · exact .failAt (List.Subset.refl ts)
    · exact .map (.close (skipWord_subset _ ts)) fun _ _ => trivial
  · exact .map (.close (List.Subset.refl ts)) fun _ _ => trivial

end

end Workflow.Template
