import Workflow.Proofs.Template.Spelling

/-!
# Substitution only

A source that is a template is made of text and of tags that spell placeholders: a path into the context, which may have a
literal as its default. The one statement tag that is accepted prints such placeholders.
-/

namespace Workflow.Template

/-! ## The grammar of placeholders -/

inductive SpellsLiteral : List Lexeme → Literal → Prop
  | constant {s : String} {l : Literal} : constant? s = some l → SpellsLiteral [.name s] l
  | int {n : Nat} : SpellsLiteral [.int n] (.int n)
  | float {x : Binary64} : SpellsLiteral [.float x] (.float x)
  | texts {s : String} {ss : List String} : SpellsLiteral ((s :: ss).map .text) (.text (String.join (s :: ss)))
  | enclosed {ts : List Lexeme} {l : Literal} : SpellsLiteral ts l → SpellsLiteral (.symbol "(" :: (ts ++ [.symbol ")"])) l

inductive SpellsPath : List Lexeme → List PathStep → Prop
  | name {s : String} : constant? s = none → SpellsPath [.name s] [.key s]
  | enclosed {ts : List Lexeme} {path : List PathStep} : SpellsPath ts path →
      SpellsPath (.symbol "(" :: (ts ++ [.symbol ")"])) path
  | member {ts : List Lexeme} {path : List PathStep} {s : String} : SpellsPath ts path →
      SpellsPath (ts ++ [.symbol ".", .name s]) (path ++ [.key s])
  | position {ts : List Lexeme} {path : List PathStep} {n : Nat} : SpellsPath ts path →
      SpellsPath (ts ++ [.symbol ".", .int n]) (path ++ [.index n])
  | index {ts us : List Lexeme} {path : List PathStep} {n : Nat} : SpellsPath ts path → SpellsLiteral us (.int n) →
      SpellsPath (ts ++ .symbol "[" :: (us ++ [.symbol "]"])) (path ++ [.index n])
  | key {ts us : List Lexeme} {path : List PathStep} {s : String} : SpellsPath ts path → SpellsLiteral us (.text s) →
      SpellsPath (ts ++ .symbol "[" :: (us ++ [.symbol "]"])) (path ++ [.key s])

inductive SpellsPlaceholder : List Lexeme → Placeholder → Prop
  | path {ts : List Lexeme} {path : List PathStep} : SpellsPath ts path → SpellsPlaceholder ts ⟨path, none⟩
  | default {ts us comma : List Lexeme} {path : List PathStep} {l : Literal} {d : String} : SpellsPath ts path →
      SpellsLiteral us l → l ≠ .null → l.written = .ok d → comma = [] ∨ comma = [.symbol ","] →
      SpellsPlaceholder (ts ++ .symbol "|" :: .name "default" :: .symbol "(" :: (us ++ comma ++ [.symbol ")"])) ⟨path, some d⟩
  | enclosed {ts : List Lexeme} {p : Placeholder} : SpellsPlaceholder ts p →
      SpellsPlaceholder (.symbol "(" :: (ts ++ [.symbol ")"])) p

inductive SpellsPlaceholders : List Lexeme → List Placeholder → Prop
  | nil : SpellsPlaceholders [] []
  | single {ts : List Lexeme} {p : Placeholder} : SpellsPlaceholder ts p → SpellsPlaceholders ts [p]
  | cons {ts us : List Lexeme} {p : Placeholder} {ps : List Placeholder} : SpellsPlaceholder ts p → us ≠ [] →
      SpellsPlaceholders us ps → SpellsPlaceholders (ts ++ .symbol "," :: us) (p :: ps)

/-- The segments that pieces spell. -/
inductive Reads : List Piece → List Segment → Prop
  | nil : Reads [] []
  | text {s : List Char} {ps : List Piece} {ss : List Segment} : Reads ps ss →
      Reads (.text s :: ps) (.text (String.ofList s) :: ss)
  | placeholder {ts : List Lexeme} {p : Placeholder} {ps : List Piece} {ss : List Segment} : SpellsPlaceholder ts p →
      Reads ps ss → Reads (.placeholder (ts ++ [.close]) :: ps) (.placeholder p :: ss)
  | print {ts : List Lexeme} {qs : List Placeholder} {ps : List Piece} {ss : List Segment} : SpellsPlaceholders ts qs →
      Reads ps ss → Reads (.statement (.name "print" :: (ts ++ [.close])) :: ps) (qs.map .placeholder ++ ss)

/-! ## Plain expressions as placeholders -/

section
variable {ts : List Lexeme} {e : Expr}

theorem plain_of_path {path : List PathStep} (h : pathOf? e = some path) : Plain e := by
  fun_induction pathOf? e generalizing path with
  | case1 s => exact .name
  | case2 e s ih =>
    obtain ⟨p, hp, -⟩ := Option.map_eq_some_iff.mp h
    exact .member (ih hp)
  | case3 e n ih =>
    obtain ⟨p, hp, -⟩ := Option.map_eq_some_iff.mp h
    exact .item (ih hp)
  | case4 e s ih =>
    obtain ⟨p, hp, -⟩ := Option.map_eq_some_iff.mp h
    exact .item (ih hp)
  | case5 => cases h

theorem literal_of_spells {l : Literal} (h : Spells ts e) (he : e = .literal l) : SpellsLiteral ts l := by
  induction h with
  | constant h =>
    cases he
    exact .constant h
  | int =>
    cases he
    exact .int
  | float =>
    cases he
    exact .float
  | texts =>
    cases he
    exact .texts
  | enclosed _ ih => exact .enclosed (ih he)
  | name | member | position | item | default => cases he

theorem path_of_spells {path : List PathStep} (h : Spells ts e) (he : pathOf? e = some path) : SpellsPath ts path := by
  induction h generalizing path with
  | name h =>
    cases he
    exact .name h
  | enclosed _ ih => exact .enclosed (ih he)
  | member _ ih =>
    obtain ⟨p, hp, rfl⟩ := Option.map_eq_some_iff.mp he
    exact .member (ih hp)
  | position _ ih =>
    obtain ⟨p, hp, rfl⟩ := Option.map_eq_some_iff.mp he
    exact .position (ih hp)
  | @item ts us e l _ hl ih =>
    have hus := literal_of_spells hl rfl
    cases l with
    | int n =>
      obtain ⟨p, hp, rfl⟩ := Option.map_eq_some_iff.mp he
      exact .index (ih hp) hus
    | text s =>
      obtain ⟨p, hp, rfl⟩ := Option.map_eq_some_iff.mp he
      exact .key (ih hp) hus
    | _ => cases he
  | constant | int | float | texts | default => cases he

theorem path_of_ok {path : List PathStep} (h : pathOf e = .ok path) : pathOf? e = some path := by
  unfold pathOf at h
  split at h
  · cases h
    assumption
  · cases h

theorem placeholderOf_cases {p : Placeholder} (h : placeholderOf e = .ok p) :
    (∃ path, pathOf? e = some path ∧ p = ⟨path, none⟩) ∨ ∃ e' path l d, e = .filter e' "default" [.literal l] false ∧
      pathOf? e' = some path ∧ l ≠ .null ∧ l.written = .ok d ∧ p = ⟨path, some d⟩ := by
  unfold placeholderOf at h
  split at h
  · split at h
    · cases h
    · rename_i hname
      rw [not_not] at hname
      subst hname
      split at h
      · cases h
      · rename_i l hl
        obtain ⟨path, hpath, h⟩ := bind_eq_ok.mp h
        obtain ⟨d, hd, h⟩ := mapError_bind_eq_ok.mp h
        cases h
        exact .inr ⟨_, path, l, d, rfl, path_of_ok hpath, hl, hd, rfl⟩
      · cases h
      · cases h
  · obtain ⟨path, hpath, rfl⟩ := map_eq_ok.mp h
    exact .inl ⟨path, path_of_ok hpath, rfl⟩

theorem plain_of_placeholder {p : Placeholder} (h : placeholderOf e = .ok p) : Plain e := by
  obtain ⟨path, hpath, -⟩ | ⟨e', path, l, d, rfl, hpath, -⟩ := placeholderOf_cases h
  · exact plain_of_path hpath
  · exact .default (plain_of_path hpath)

theorem placeholder_of_spells {p : Placeholder} (h : Spells ts e) (he : placeholderOf e = .ok p) : SpellsPlaceholder ts p := by
  obtain ⟨path, hpath, rfl⟩ | ⟨e', path, l, d, rfl, hpath, hnull, hd, rfl⟩ := placeholderOf_cases he
  · exact .path (path_of_spells h hpath)
  · generalize hfilter : Expr.filter e' "default" [.literal l] false = e at h
    induction h with
    | enclosed _ ih => exact .enclosed (ih hfilter)
    | default ht hu hcomma =>
      cases hfilter
      exact .default (path_of_spells ht hpath) (literal_of_spells hu rfl) hnull hd hcomma
    | name | constant | int | float | texts | member | position | item => cases hfilter

end

/-! ## The statements that print -/

def Unprinted (x : Except TemplateFault Statement) : Prop := ∀ es, x ≠ .ok (.print es)

namespace Unprinted

variable {α : Type} {ts : List Lexeme}

theorem failAt : Unprinted (failAt ts) := fun _ => failAt_ne

theorem bind {x : Except TemplateFault α} {f : α → Except TemplateFault Statement} (h : ∀ a, Unprinted (f a)) :
    Unprinted (x >>= f) := by
  intro es he
  obtain ⟨a, -, ha⟩ := bind_eq_ok.mp he
  exact h a es ha

theorem opens {s : Section} : Unprinted (.ok (.opens s)) := by
  intro es he
  cases he

theorem single : Unprinted (.ok .single) := by
  intro es he
  cases he

theorem error {f : TemplateFault} : Unprinted (.error f) := by
  intro es he
  cases he

theorem opening {s : Section} : Unprinted (opening s ts) := .bind fun _ => .opens

theorem alone : Unprinted (alone ts) := .bind fun _ => .single

theorem forTag : Unprinted (forTag ts) := by
  refine .bind fun ts => ?_
  split
  · refine .bind fun x => ?_
    dsimp only
    split
    · exact .bind fun _ => .opening
    · exact .opening
  · exact .failAt

theorem ifTag {s : Section} : Unprinted (ifTag s ts) := .bind fun _ => .opening

theorem setTag : Unprinted (setTag ts) := by
  refine .bind fun ts => ?_
  split
  · exact .bind fun _ => .alone
  · exact .bind fun _ => .opening

theorem withTag {fuel : Nat} : Unprinted (withTag fuel ts) := by
  induction fuel generalizing ts with
  | zero =>
    unfold Template.withTag
    split
    · exact .opens
    · exact .failAt
    · cases ‹0 = _›
  | succ fuel ih =>
    unfold Template.withTag
    split
    · exact .opens
    · cases ‹fuel + 1 = 0›
    · cases ‹fuel + 1 = _›
      refine .bind fun ts => .bind fun ts => .bind fun x => ?_
      split
      split
      · exact .error
      · exact ih
      · exact .bind fun _ => .opens

theorem blockTag : Unprinted (blockTag ts) := by
  unfold Template.blockTag
  split
  · split <;> exact .opening
  · exact .failAt

theorem aloneWithNote : Unprinted (aloneWithNote ts) := .bind fun _ => .alone

theorem includeTag : Unprinted (includeTag ts) := by
  refine .bind fun x => ?_
  split
  split
  · exact .aloneWithNote
  · exact .failAt
  · exact .aloneWithNote

theorem importTag : Unprinted (importTag ts) := by
  refine .bind fun x => ?_
  split
  split
  · exact .bind fun _ => .aloneWithNote
  · exact .failAt

theorem fromTag : Unprinted (fromTag ts) := by
  refine .bind fun x => ?_
  split
  split
  · exact .bind fun _ => .alone
  · exact .failAt

theorem macroTag : Unprinted (macroTag ts) := .bind fun _ => .bind fun _ => .bind fun _ => .opening

theorem callTag : Unprinted (callTag ts) := by
  unfold Template.callTag
  extract_lets rest
  have hrest {ts : List Lexeme} : Unprinted (rest ts) := by
    refine .bind fun x => ?_
    split
    split
    · exact .opening
    · exact .failAt
  split
  · exact .bind fun _ => hrest
  · exact hrest

theorem filterTag : Unprinted (filterTag ts) := .bind fun _ => .bind fun _ => .opening

end Unprinted

theorem print_of_statement {ts : List Lexeme} {es : List Expr} (h : statement ts = .ok (.print es)) :
    ∃ us, ts = .name "print" :: us ∧ printed (us.length + 1) us = .ok es := by
  unfold statement at h
  split at h
  · split at h
    · exact absurd h (Unprinted.forTag es)
    · exact absurd h (Unprinted.ifTag es)
    · exact absurd h (Unprinted.setTag es)
    · exact absurd h (Unprinted.withTag es)
    · exact absurd h (Unprinted.bind (fun _ => .opening) es)
    · exact absurd h (Unprinted.blockTag es)
    · exact absurd h (Unprinted.bind (fun _ => .alone) es)
    · exact absurd h (Unprinted.includeTag es)
    · exact absurd h (Unprinted.importTag es)
    · exact absurd h (Unprinted.fromTag es)
    · obtain ⟨es', hes, he⟩ := map_eq_ok.mp h
      cases he
      exact ⟨_, rfl, hes⟩
    · exact absurd h (Unprinted.macroTag es)
    · exact absurd h (Unprinted.callTag es)
    · exact absurd h (Unprinted.filterTag es)
    · cases h
  · exact absurd h failAt_ne

/-! ## Pieces as segments -/

def Piece.lexemes : Piece → List Lexeme
  | text _ => []
  | placeholder ts => ts
  | statement ts => ts
  | broken => []

/-- Nothing follows the end of a tag. -/
def EndsOnce (ts : List Lexeme) : Prop := ∀ us rest, ts = us ++ .close :: rest → rest = []

theorem close_ok {ts : List Lexeme} (h : close ts = .ok ()) : ∃ rest, ts = .close :: rest := by
  unfold close at h
  split at h
  · exact ⟨_, rfl⟩
  · exact absurd h failAt_ne

section
variable {ts : List Lexeme} {es : List Expr}

theorem spells_of_placeholder {e : Expr} {rest : List Lexeme} {p : Placeholder} (hc : Plain e → Covers ts rest e)
    (hp : placeholderOf e = .ok p) : ∃ us, ts = us ++ rest ∧ SpellsPlaceholder us p := by
  obtain ⟨us, rfl, hus⟩ := hc (plain_of_placeholder hp)
  exact ⟨us, rfl, placeholder_of_spells hus hp⟩

/-- What is printed is an expression, and then the end of the tag or a comma and more of it. -/
theorem printed_cases {fuel : Nat} (h : printed fuel ts = .ok es) : es = [] ∧ (∃ rest, ts = .close :: rest) ∨
    ∃ n e us es', wholeExpression ts = .ok (e, us) ∧ es = e :: es' ∧ (es' = [] ∧ (∃ rest, us = .close :: rest) ∨
      fuel = n + 1 ∧ ∃ ts', us = .symbol "," :: ts' ∧ (∀ rest, ts' ≠ .close :: rest) ∧ printed n ts' = .ok es') := by
  unfold printed at h
  split at h
  · cases h
    exact .inl ⟨rfl, _, rfl⟩
  · exact absurd h failAt_ne
  · obtain ⟨⟨e, us⟩, he, h⟩ := bind_eq_ok.mp h
    dsimp only at h
    split at h
    · cases h
    · rename_i _ _ n _ _ _ us hclose
      obtain ⟨es', hes, h⟩ := bind_eq_ok.mp h
      cases h
      exact .inr ⟨n, e, _, es', he, rfl, .inr ⟨rfl, us, rfl, fun rest hrest => hclose rest hrest, hes⟩⟩
    · obtain ⟨_, hclosed, h⟩ := bind_eq_ok.mp h
      cases h
      exact .inr ⟨0, e, us, [], he, rfl, .inl ⟨rfl, close_ok hclosed⟩⟩

theorem placeholders_of_printed {fuel : Nat} {qs : List Placeholder} (h : printed fuel ts = .ok es)
    (hq : List.Forall₂ (fun e p => placeholderOf e = .ok p) es qs) :
    ∃ us rest, ts = us ++ .close :: rest ∧ SpellsPlaceholders us qs := by
  induction fuel using Nat.strongRecOn generalizing ts es qs with
  | ind fuel ih =>
    obtain ⟨rfl, rest, rfl⟩ | ⟨n, e, us, es', he, rfl, hmore⟩ := printed_cases h
    · cases hq
      exact ⟨[], rest, rfl, .nil⟩
    · obtain ⟨p, qs', hp, hqs, rfl⟩ := List.forall₂_cons_left_iff.mp hq
      obtain ⟨us, rfl, hus⟩ := spells_of_placeholder ((sound _).expression he) hp
      obtain ⟨rfl, rest, rfl⟩ | ⟨rfl, ts', rfl, hopen, hes⟩ := hmore
      · cases hqs
        exact ⟨us, rest, rfl, .single hus⟩
      · obtain ⟨vs, rest, rfl, hvs⟩ := ih n n.lt_succ_self hes hqs
        refine ⟨us ++ .symbol "," :: vs, rest, by simp, .cons hus ?_ hvs⟩
        rintro rfl
        exact hopen rest rfl

theorem spells_of_wholeExpression {e : Expr} {us : List Lexeme} (h : wholeExpression ts = .ok (e, us)) (he : Plain e) :
    ∃ vs, vs ⊆ ts ∧ Spells vs e := by
  obtain ⟨vs, rfl, hvs⟩ := (sound _).expression h he
  exact ⟨vs, List.subset_append_left vs us, hvs⟩

theorem spells_of_printed {fuel : Nat} (h : printed fuel ts = .ok es) :
    ∀ e ∈ es, Plain e → ∃ us, us ⊆ ts ∧ Spells us e := by
  induction fuel using Nat.strongRecOn generalizing ts es with
  | ind fuel ih =>
    obtain ⟨rfl, -⟩ | ⟨n, e, us, es', he, rfl, hmore⟩ := printed_cases h
    · nofun
    · refine List.forall_mem_cons.mpr ⟨spells_of_wholeExpression he, ?_⟩
      obtain ⟨rfl, -⟩ | ⟨rfl, ts', rfl, -, hes⟩ := hmore
      · nofun
      · have hleft : ts' ⊆ ts := List.subset_of_cons_subset ((wholeExpression_takes ts).1 _ he)
        intro e' he' hplain
        obtain ⟨vs, hsub, hvs⟩ := ih n n.lt_succ_self hes e' he' hplain
        exact ⟨vs, List.Subset.trans hsub hleft, hvs⟩

theorem placeholder_of_output {e : Expr} {seg : Segment} (h : segmentOf (.output e) = .ok seg) :
    ∃ p, placeholderOf e = .ok p ∧ seg = .placeholder p := by
  change (placeholderOf e).map Segment.placeholder = _ at h
  obtain ⟨p, hp, rfl⟩ := map_eq_ok.mp h
  exact ⟨p, hp, rfl⟩

/-- The segments of printed expressions come before those of what follows. -/
theorem placeholders_of_outputs {ns : List Node} {ss : List Segment}
    (h : (es.map Node.output ++ ns).mapM segmentOf = .ok ss) : ∃ qs ss', ss = qs.map .placeholder ++ ss' ∧
      List.Forall₂ (fun e p => placeholderOf e = .ok p) es qs ∧ ns.mapM segmentOf = .ok ss' := by
  induction es generalizing ss with
  | nil => exact ⟨[], ss, rfl, .nil, h⟩
  | cons e es ih =>
    obtain ⟨seg, hseg, ss', hss, rfl⟩ := mapM_cons_eq_ok.mp h
    obtain ⟨p, hp, rfl⟩ := placeholder_of_output hseg
    obtain ⟨qs, ss', rfl, hqs, hns⟩ := ih hss
    exact ⟨p :: qs, ss', rfl, .cons hp hqs, hns⟩

/-- What a piece adds to the nodes, and the sections that are open after it. Inside a section it adds nothing. -/
inductive Adds : List Section → Piece → List Node → List Section → Prop
  | text {s : List Char} : Adds [] (.text s) [.text (String.ofList s)] []
  | placeholder {ts rest : List Lexeme} {e : Expr} : tuple (fuelFor ts) true [] false ts = .ok (e, rest) → close rest = .ok () →
      Adds [] (.placeholder ts) [.output e] []
  | print {ts : List Lexeme} {es : List Expr} : Template.statement ts = .ok (.print es) →
      Adds [] (.statement ts) (es.map .output) []
  | statement {ts : List Lexeme} {stack : List Section} : Adds [] (.statement ts) [.statement] stack
  | within {s : Section} {outer stack : List Section} {p : Piece} : Adds (s :: outer) p [] stack

theorem nodes_cons {stack : List Section} {p : Piece} {ps : List Piece} {ns : List Node} (h : nodes stack (p :: ps) = .ok ns) :
    ∃ own stack' ns', Adds stack p own stack' ∧ nodes stack' ps = .ok ns' ∧ ns = own ++ ns' := by
  cases p with
  | broken =>
    rw [nodes] at h
    cases h
  | text s =>
    rw [nodes] at h
    obtain ⟨ns', hns, h⟩ := bind_eq_ok.mp h
    cases h
    cases stack with
    | nil => exact ⟨_, _, ns', .text, hns, rfl⟩
    | cons s outer => exact ⟨[], _, ns', .within, hns, rfl⟩
  | placeholder ts =>
    rw [nodes] at h
    obtain ⟨⟨e, rest⟩, he, h⟩ := bind_eq_ok.mp h
    obtain ⟨_, hclosed, h⟩ := bind_eq_ok.mp h
    obtain ⟨ns', hns, h⟩ := bind_eq_ok.mp h
    cases h
    cases stack with
    | nil => exact ⟨_, _, ns', .placeholder he hclosed, hns, rfl⟩
    | cons s outer => exact ⟨[], _, ns', .within, hns, rfl⟩
  | statement ts =>
    cases stack with
    | nil =>
      rw [nodes] at h
      obtain ⟨st, hst, h⟩ := bind_eq_ok.mp h
      cases st with
      | print es =>
        obtain ⟨ns', hns, h⟩ := bind_eq_ok.mp h
        cases h
        exact ⟨_, _, ns', .print hst, hns, rfl⟩
      | single | opens s =>
        obtain ⟨ns', hns, h⟩ := bind_eq_ok.mp h
        cases h
        exact ⟨[.statement], _, ns', .statement, hns, rfl⟩
    | cons s outer =>
      have hwithin {stack : List Section} (h : nodes stack ps = .ok ns) :
          ∃ own stack' ns', Adds (s :: outer) (.statement ts) own stack' ∧ nodes stack' ps = .ok ns' ∧ ns = own ++ ns' :=
        ⟨[], stack, ns, .within, h, rfl⟩
      unfold nodes at h
      split at h
      · split at h
        · obtain ⟨next, -, h⟩ := bind_eq_ok.mp h
          cases next with
          | none => exact hwithin h
          | some s => exact hwithin h
        · obtain ⟨st, -, h⟩ := bind_eq_ok.mp h
          cases st with
          | print es | single | opens t => exact hwithin h
      · exact absurd h failAt_ne

theorem reads_of_nodes {ps : List Piece} {ns : List Node} {ss : List Segment} (h : nodes [] ps = .ok ns)
    (hs : ns.mapM segmentOf = .ok ss) (hends : ∀ p ∈ ps, EndsOnce p.lexemes) : Reads ps ss := by
  induction ps generalizing ns ss with
  | nil =>
    cases h
    cases hs
    exact .nil
  | cons p ps ih =>
    obtain ⟨hp, hps⟩ := List.forall_mem_cons.mp hends
    obtain ⟨own, stack, ns, hadds, hns, rfl⟩ := nodes_cons h
    cases hadds with
    | text =>
      obtain ⟨seg, hseg, ss', hss, rfl⟩ := mapM_cons_eq_ok.mp hs
      cases hseg
      exact .text (ih hns hss hps)
    | placeholder he hclosed =>
      obtain ⟨rest, rfl⟩ := close_ok hclosed
      obtain ⟨seg, hseg, ss', hss, rfl⟩ := mapM_cons_eq_ok.mp hs
      obtain ⟨q, hq, rfl⟩ := placeholder_of_output hseg
      obtain ⟨us, rfl, hus⟩ := spells_of_placeholder ((sound _).tuple he) hq
      cases hp us rest rfl
      exact .placeholder hus (ih hns hss hps)
    | print hst =>
      obtain ⟨us, rfl, hus⟩ := print_of_statement hst
      obtain ⟨qs, ss', rfl, hqs, hss⟩ := placeholders_of_outputs hs
      obtain ⟨us, rest, rfl, hspells⟩ := placeholders_of_printed hus hqs
      cases hp (.name "print" :: us) rest rfl
      exact .print hspells (ih hns hss hps)
    | statement =>
      obtain ⟨_, hstatement, -⟩ := mapM_cons_eq_ok.mp hs
      cases hstatement

/-- Every expression among the nodes of a source is read from one of its tags. -/
theorem outputs_of_nodes {stack : List Section} {ps : List Piece} {ns : List Node} (h : nodes stack ps = .ok ns) :
    ∀ e, .output e ∈ ns → ∃ p ∈ ps, Plain e → ∃ us, us ⊆ p.lexemes ∧ Spells us e := by
  induction ps generalizing stack ns with
  | nil =>
    cases stack with
    | nil =>
      cases h
      nofun
    | cons s outer => cases h
  | cons p ps ih =>
    obtain ⟨own, stack, ns, hadds, hns, rfl⟩ := nodes_cons h
    intro e he
    rcases List.mem_append.mp he with he | he
    · refine ⟨p, List.mem_cons_self, fun hplain => ?_⟩
      cases hadds with
      | text | statement | within => simp at he
      | placeholder hread hclosed =>
        cases List.mem_singleton.mp he
        obtain ⟨vs, rfl, hvs⟩ := (sound _).tuple hread hplain
        exact ⟨vs, List.subset_append_left vs _, hvs⟩
      | print hst =>
        obtain ⟨e', he', hsame⟩ := List.mem_map.mp he
        cases hsame
        obtain ⟨us, rfl, hus⟩ := print_of_statement hst
        obtain ⟨vs, hsub, hvs⟩ := spells_of_printed hus e he' hplain
        exact ⟨vs, List.subset_cons_of_subset _ hsub, hvs⟩
    · obtain ⟨q, hq, hspells⟩ := ih hns e he
      exact ⟨q, List.mem_cons_of_mem p hq, hspells⟩

end

/-! ## Tags of a source -/

/-- A number that is not read: with a point or an exponent and digits of another script, or with too many digits. -/
def IsUnreadNumber (f : TemplateFault) : Prop :=
  (∃ first, f = .breakdown (.foreign first)) ∨ ∃ digits, longestNumeral < digits ∧ f = .breakdown (.unread digits)

/-- A lexeme does not end a tag, and if it cannot be read, it is a number. -/
def IsPart (t : Lexeme) : Prop := t ≠ .close ∧ ∀ f, t = .stop f → IsUnreadNumber f

section
variable {cs rest : List Char} {t : Lexeme}

theorem floatLexeme_part (numeral : List Char) (x : Binary64) : IsPart (floatLexeme numeral x) := by
  unfold floatLexeme
  split
  · exact ⟨nofun, nofun⟩
  · refine ⟨nofun, fun f hf => ?_⟩
    cases hf
    exact .inl ⟨_, rfl⟩

theorem intLexeme_part (ds : List Char) : IsPart (intLexeme ds) := by
  unfold intLexeme readDigits
  split
  · exact ⟨nofun, nofun⟩
  · rename_i b hb
    split at hb
    · cases hb
    · refine ⟨nofun, fun f hf => ?_⟩
      cases hb
      cases hf
      exact .inr ⟨_, Nat.lt_of_not_le ‹_›, rfl⟩

theorem scanFloat?_part (h : scanFloat? cs = some (t, rest)) : IsPart t := by
  obtain ⟨x, -, hx⟩ := Option.map_eq_some_iff.mp h
  cases hx
  exact floatLexeme_part _ _

theorem scanBased?_part {mark : Char} {base : Nat} {digit : Char → Bool} (h : scanBased? mark base digit cs = some (t, rest)) :
    IsPart t := by
  unfold scanBased? at h
  split at h
  · split at h
    · dsimp only at h
      split at h
      · cases h
      · cases h
        exact ⟨nofun, nofun⟩
    · cases h
  · cases h

theorem scanDecimalInt?_part (h : scanDecimalInt? cs = some (t, rest)) : IsPart t := by
  unfold scanDecimalInt? at h
  split at h
  · cases h
  · split at h
    · cases h
      exact intLexeme_part _
    · split at h
      · cases h
        exact intLexeme_part _
      · cases h

theorem scanName?_part (h : scanName? cs = some (t, rest)) : IsPart t := by
  unfold scanName? at h
  split at h
  · cases h
  · split at h
    · cases h
      exact ⟨nofun, nofun⟩
    · cases h

theorem scanText?_part {names : CharacterNames} (h : scanText? names cs = some (t, rest)) : IsPart t := by
  unfold scanText? at h
  split at h
  · cases h
  · split at h
    · obtain ⟨x, -, h⟩ := Option.bind_eq_some_iff.mp h
      obtain ⟨s, -, h⟩ := Option.bind_eq_some_iff.mp h
      cases h
      exact ⟨nofun, nofun⟩
    · cases h

theorem scanSymbol?_part (h : scanSymbol? cs = some (t, rest)) : IsPart t := by
  obtain ⟨s, -, hs⟩ := Option.map_eq_some_iff.mp h
  cases hs
  exact ⟨nofun, nofun⟩

theorem scanLexeme?_part {names : CharacterNames} {afterPoint : Bool} (h : scanLexeme? names afterPoint cs = some (t, rest)) :
    IsPart t := by
  simp only [scanLexeme?, scanInt?, Option.or_eq_some_iff] at h
  rcases h with h | ⟨-, (h | ⟨-, h | ⟨-, h | ⟨-, h⟩⟩⟩) | ⟨-, h | ⟨-, h | ⟨-, h⟩⟩⟩⟩
  · split at h
    · cases h
    · exact scanFloat?_part h
  · exact scanBased?_part h
  · exact scanBased?_part h
  · exact scanBased?_part h
  · exact scanDecimalInt?_part h
  · exact scanName?_part h
  · exact scanText?_part h
  · exact scanSymbol?_part h

/-- Nothing follows the end of a tag, and where the tag stops it is malformed or has a number that is not read. -/
structure IsTag (ts : List Lexeme) : Prop where
  ends : EndsOnce ts
  stops : ∀ f, .stop f ∈ ts → f = .malformed ∨ IsUnreadNumber f

theorem isTag_nil : IsTag [] := ⟨fun us rest h => by simp at h, nofun⟩

theorem isTag_close : IsTag [.close] := by
  refine ⟨fun us rest h => ?_, fun f hf => by simp at hf⟩
  cases us with
  | nil => simpa using h
  | cons u us => simp at h

theorem isTag_stop {f : TemplateFault} (hf : f = .malformed ∨ IsUnreadNumber f) : IsTag [.stop f] := by
  refine ⟨fun us rest h => ?_, fun g hg => ?_⟩
  · cases us with
    | nil => simp at h
    | cons u us => simp at h
  · obtain rfl : g = f := by simpa using hg
    exact hf

theorem IsTag.cons {ts : List Lexeme} (hts : IsTag ts) (ht : IsPart t) : IsTag (t :: ts) := by
  refine ⟨fun us rest h => ?_, fun f hf => ?_⟩
  · cases us with
    | nil => exact absurd (List.cons.inj h).1 ht.1
    | cons u us => exact hts.ends us rest (List.cons.inj h).2
  · rcases List.mem_cons.mp hf with hf | hf
    · exact .inr (ht.2 f hf.symm)
    · exact hts.stops f hf

theorem tagLexemes_isTag {names : CharacterNames} {ends? : List Char → Option (List Char)} {fuel : Nat}
    {brackets : List String} {afterPoint : Bool} : IsTag (tagLexemes names ends? fuel brackets afterPoint cs).1 := by
  induction fuel generalizing brackets afterPoint cs with
  | zero => exact isTag_stop (.inl rfl)
  | succ fuel ih =>
    unfold tagLexemes
    split
    · exact isTag_close
    · split
      · exact isTag_stop (.inl rfl)
      · split
        · exact ih
        · split
          · exact isTag_stop (.inl rfl)
          · exact isTag_stop (.inr ((scanLexeme?_part ‹_›).2 _ rfl))
          · split
            · exact isTag_stop (.inl rfl)
            · exact ih.cons (scanLexeme?_part ‹_›)

end

theorem textPiece_tags {strip : Bool} {s : List Char} : ∀ p ∈ textPiece strip s, IsTag p.lexemes := by
  intro p hp
  unfold textPiece at hp
  dsimp only at hp
  generalize (if strip = true then dropBlanksRight s else s) = t at hp
  split at hp
  · cases hp
  · cases List.mem_singleton.mp hp
    exact isTag_nil

theorem pieces_tags {names : CharacterNames} {fuel : Nat} {cs : List Char} : ∀ p ∈ pieces names fuel cs, IsTag p.lexemes := by
  induction fuel generalizing cs with
  | zero =>
    intro p hp
    cases List.mem_singleton.mp hp
    exact isTag_nil
  | succ fuel ih =>
    have hbroken : ∀ p ∈ [Piece.broken], IsTag p.lexemes := List.forall_mem_singleton.mpr isTag_nil
    unfold pieces
    dsimp only
    split
    · split
      · exact List.forall_mem_append.mpr ⟨textPiece_tags, List.forall_mem_cons.mpr ⟨tagLexemes_isTag, ih⟩⟩
      · split
        · split
          · exact List.forall_mem_append.mpr ⟨textPiece_tags, ih⟩
          · exact List.forall_mem_append.mpr ⟨textPiece_tags, hbroken⟩
        · split
          · split
            · exact List.forall_mem_append.mpr ⟨List.forall_mem_append.mpr ⟨textPiece_tags, textPiece_tags⟩, ih⟩
            · exact List.forall_mem_append.mpr ⟨textPiece_tags, hbroken⟩
          · exact List.forall_mem_append.mpr ⟨textPiece_tags, List.forall_mem_cons.mpr ⟨tagLexemes_isTag, ih⟩⟩
    · exact textPiece_tags

theorem piecesOf_tags (names : CharacterNames) (source : String) : ∀ p ∈ piecesOf names source, IsTag p.lexemes := pieces_tags

/-! ## Faults -/

section
variable {ps : List Piece} {stack : List Section} {f : TemplateFault}

theorem nodes_cons_fault {p : Piece} (h : nodes stack (p :: ps) = .error f) :
    (f = .malformed ∨ .stop f ∈ p.lexemes) ∨ ∃ stack', nodes stack' ps = .error f := by
  have hrest {stack : List Section} {g : List Node → List Node} (h : (nodes stack ps >>= fun ns => pure (g ns)) = .error f) :
      ∃ stack', nodes stack' ps = .error f := by
    rcases bind_eq_error.mp h with h | ⟨ns, -, h⟩
    · exact ⟨stack, h⟩
    · cases h
  cases p with
  | broken =>
    rw [nodes] at h
    cases h
    exact .inl (.inl rfl)
  | text s =>
    rw [nodes] at h
    exact .inr (hrest h)
  | placeholder ts =>
    rw [nodes] at h
    rcases bind_eq_error.mp h with h | ⟨⟨e, us⟩, he, h⟩
    · exact .inl (((honest _).tuple ts).2 f h)
    · rcases bind_eq_error.mp h with h | ⟨_, -, h⟩
      · exact .inl ((Answers.close (((honest _).tuple ts).1 _ he)).2 f h)
      · exact .inr (hrest h)
  | statement ts =>
    cases stack with
    | nil =>
      rw [nodes] at h
      rcases bind_eq_error.mp h with h | ⟨st, -, h⟩
      · exact .inl ((statement_answers ts).2 f h)
      · cases st with
        | print es | single | opens s => exact .inr (hrest h)
    | cons s outer =>
      unfold nodes at h
      split at h
      · rename_i word after
        split at h
        · rcases bind_eq_error.mp h with h | ⟨next, -, h⟩
          · exact .inl (((follow_answers after).2 f h).imp id fun hf => List.mem_cons_of_mem _ hf)
          · cases next with
            | none => exact .inr ⟨_, h⟩
            | some s => exact .inr ⟨_, h⟩
        · rcases bind_eq_error.mp h with h | ⟨st, -, h⟩
          · exact .inl ((statement_answers _).2 f h)
          · cases st with
            | print es | single | opens t => exact .inr ⟨_, h⟩
      · exact .inl ((Answers.failAt (P := fun _ : List Node => True) (List.Subset.refl ts)).2 f h)

/-- A fault of the nodes is one of the tags. -/
theorem nodes_fault (h : nodes stack ps = .error f) : f = .malformed ∨ ∃ p ∈ ps, .stop f ∈ p.lexemes := by
  induction ps generalizing stack with
  | nil =>
    cases stack with
    | nil => cases h
    | cons s outer =>
      cases h
      exact .inl rfl
  | cons p ps ih =>
    obtain (hmalformed | hf) | ⟨stack', h⟩ := nodes_cons_fault h
    · exact .inl hmalformed
    · exact .inr ⟨p, List.mem_cons_self, hf⟩
    · exact (ih h).imp id fun ⟨q, hq, hf⟩ => ⟨q, List.mem_cons_of_mem p hq, hf⟩

theorem fault_of_placeholderOf {e : Expr} (h : placeholderOf e = .error f) : f.breakdown? = none ∨
    f = .breakdown .unwritten ∧ ∃ e' n, e = .filter e' "default" [.literal (.int n)] false ∧ Plain e ∧ isWritable n = false := by
  have hpath {e : Expr} (h : pathOf e = .error f) : f.breakdown? = none := by
    unfold pathOf at h
    split at h <;> cases h
    rfl
  unfold placeholderOf at h
  split at h
  · split at h
    · cases h
      exact .inl rfl
    · rename_i hname
      rw [not_not] at hname
      subst hname
      split at h
      · cases h
        exact .inl rfl
      · rename_i l _
        rcases bind_eq_error.mp h with h | ⟨path, hok, h⟩
        · exact .inl (hpath h)
        · rcases mapError_bind_eq_error.mp h with ⟨b, hb, rfl⟩ | ⟨d, -, h⟩
          · cases l with
            | int n =>
              unfold Literal.written integerText at hb
              dsimp only at hb
              split at hb
              · cases hb
              · cases hb
                exact .inr ⟨rfl, _, n, rfl, .default (plain_of_path (path_of_ok hok)), eq_false_of_ne_true ‹_›⟩
            | _ => cases hb
          · cases h
      · cases h
        exact .inl rfl
      · cases h
        exact .inl rfl
  · exact .inl (hpath (map_eq_error.mp h))

theorem mem_of_spellsLiteral {ts : List Lexeme} {n : Nat} (h : SpellsLiteral ts (.int n)) : .int n ∈ ts := by
  generalize hl : Literal.int n = l at h
  induction h with
  | int =>
    cases hl
    simp
  | enclosed _ ih => simp [ih hl]
  | constant h =>
    subst hl
    unfold constant? at h
    split at h
    · cases h
    · split at h
      · cases h
      · split at h <;> cases h
  | float | texts => cases hl

theorem mem_of_spells_default {ts : List Lexeme} {e : Expr} {n : Nat}
    (h : Spells ts (.filter e "default" [.literal (.int n)] false)) : .int n ∈ ts := by
  generalize hfilter : Expr.filter e "default" [.literal (.int n)] false = e' at h
  induction h with
  | enclosed _ ih => simp [ih hfilter]
  | default _ hu _ =>
    cases hfilter
    simp [mem_of_spellsLiteral (literal_of_spells hu rfl)]
  | name | constant | int | float | texts | member | position | item => cases hfilter

end

/-! ## Templates -/

variable {names : CharacterNames}

theorem reads_of_parse {source : String} {t : Template} (h : parseWith names source = .ok t) :
    t.source = source ∧ Reads (piecesOf names source) t.segments := by
  obtain ⟨ns, hns, h⟩ := bind_eq_ok.mp h
  obtain ⟨ss, hss, h⟩ := bind_eq_ok.mp h
  cases h
  exact ⟨rfl, reads_of_nodes hns hss fun p hp => (piecesOf_tags names source p hp).ends⟩

/-- A number of a source that is not read, or the default of a placeholder that cannot be written. -/
def BreaksDown (ps : List Piece) (f : TemplateFault) : Prop :=
  ∃ p ∈ ps, IsUnreadNumber f ∧ .stop f ∈ p.lexemes ∨
    f = .breakdown .unwritten ∧ ∃ n : Nat, .int n ∈ p.lexemes ∧ isWritable n = false

theorem breaksDown_of_parse {source : String} {f : TemplateFault} (h : parseWith names source = .error f) :
    f.breakdown? = none ∨ BreaksDown (piecesOf names source) f := by
  rcases bind_eq_error.mp h with h | ⟨ns, hns, h⟩
  · rcases nodes_fault h with rfl | ⟨p, hp, hf⟩
    · exact .inl rfl
    · rcases (piecesOf_tags names source p hp).stops f hf with rfl | hnumber
      · exact .inl rfl
      · exact .inr ⟨p, hp, .inl ⟨hnumber, hf⟩⟩
  · rcases bind_eq_error.mp h with h | ⟨ss, -, h⟩
    · obtain ⟨n, hn, hfault⟩ := exists_fault h
      cases n with
      | text s => cases hfault
      | statement =>
        cases hfault
        exact .inl rfl
      | output e =>
        have hfault : placeholderOf e = .error f := map_eq_error.mp hfault
        rcases fault_of_placeholderOf hfault with hnone | ⟨rfl, e', n, rfl, hplain, hwritable⟩
        · exact .inl hnone
        · obtain ⟨p, hp, hspells⟩ := outputs_of_nodes hns _ hn
          obtain ⟨us, hus, hspells⟩ := hspells hplain
          exact .inr ⟨p, hp, .inr ⟨rfl, n, hus (mem_of_spells_default hspells), hwritable⟩⟩
    · cases h

/-- **Templates are substitution only.** The tags of a source that is accepted spell placeholders: they hold them between braces,
or they print them. Whatever else a source is, it is refused for its syntax, unless one of its numbers breaks the reading down:
one with a point or an exponent that has digits of another script, one with too many digits, a default with too many. -/
theorem parse_is_substitution (names : CharacterNames) (source : String) :
    (∀ t, parseWith names source = .ok t → t.source = source ∧ Reads (piecesOf names source) t.segments) ∧
    ∀ f, parseWith names source = .error f → f.breakdown? = none ∨ BreaksDown (piecesOf names source) f :=
  ⟨fun _ => reads_of_parse, fun _ => breaksDown_of_parse⟩

/-- A path of three steps with a default, spelled in ways of its own. -/
def spelledOut : String := "to \x7b\x7b (user).names[0]['fir' 'st'] | default('you',) \x7d\x7d!"

theorem parse_is_substitution_spelledOut : ∃ t, parse spelledOut = .ok t ∧ t.segments = [.text "to ",
      .placeholder ⟨[.key "user", .key "names", .index 0, .key "first"], some "you"⟩, .text "!"] ∧
    t.source = spelledOut ∧ Reads (piecesOf characterNamed spelledOut) t.segments := by
  have hparse : (parse spelledOut).toOption.any (fun t => decide (t.segments = [.text "to ",
      .placeholder ⟨[.key "user", .key "names", .index 0, .key "first"], some "you"⟩, .text "!"])) = true := by
    decide +kernel
  obtain ⟨t, ht, hsegments⟩ := any_toOption.mp hparse
  exact ⟨t, ht, of_decide_eq_true hsegments, (parse_is_substitution characterNamed spelledOut).1 t ht⟩

def Piece.isStatement : Piece → Bool
  | statement _ => true
  | _ => false

/-- A printing tag is accepted, and a bare number in the digits of another script is not refused for its syntax. -/
theorem parse_print : (∃ t, parse "\x7b% print a %\x7d" = .ok t ∧ t.segments = [.placeholder ⟨[.key "a"], none⟩] ∧
      (piecesOf characterNamed "\x7b% print a %\x7d").any Piece.isStatement = true) ∧
    ∃ b, parse "\x7b\x7b 1.٥ \x7d\x7d" = .error (.breakdown b) ∧ b.kind = "SyntaxError" := by
  have hprint : (parse "\x7b% print a %\x7d").toOption.any
      (fun t => decide (t.segments = [.placeholder ⟨[.key "a"], none⟩])) = true := by decide +kernel
  have hforeign : (fault? (parse "\x7b\x7b 1.٥ \x7d\x7d")).any
      (fun f => decide (f = .breakdown (.foreign none))) = true := by
    decide +kernel
  obtain ⟨t, ht, hsegments⟩ := any_toOption.mp hprint
  obtain ⟨f, hf, hforeign⟩ := any_fault?.mp hforeign
  cases of_decide_eq_true hforeign
  exact ⟨⟨t, ht, of_decide_eq_true hsegments, by decide⟩, _, hf, rfl⟩

end Workflow.Template
