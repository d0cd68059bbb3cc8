import Workflow.Proofs.Yaml.Writing
import Workflow.Yaml.Node

/-!
# The nodes of a text of JSON

The tokens of a value of JSON are composed to the node of that value, unless the text of a key is too long: then the colon
behind it stands where no colon can.
-/

namespace Workflow

open Yaml Yaml.Layout

/-! ## Nodes of values -/

/-- Whether the text of a key is short enough to be read as one. -/
def Scalar.fitsKey (k : Scalar) : Bool := (jsonText k.plainText).toList.length ≤ longestKey

/-- Whether all keys within a value are short enough to be read as keys. -/
def Value.keysFit (v : Value) : Bool := v.all (fun _ => true) Scalar.fitsKey

theorem Value.keysFit_list (vs : List Value) : (list vs).keysFit = vs.all keysFit := all_list ..

theorem Value.keysFit_mapping (ms : Members) : (mapping ms).keysFit = ms.all fun m => m.1.fitsKey && m.2.keysFit :=
  all_mapping ..

def Scalar.node : Scalar → Node
  | text s => .scalar Tag.text s
  | s => .scalar (Tag.ofText s.json) s.json

theorem Scalar.node_eq {s : Scalar} (h : ∀ t, s ≠ .text t) : s.node = .scalar (Tag.ofText s.json) s.json := by
  cases s with
  | text t => exact absurd rfl (h t)
  | _ => rfl

mutual

def Value.node : Value → Node
  | .scalar s => s.node
  | .list vs => .sequence Tag.sequence (itemNodes vs)
  | .mapping ms => .mapping Tag.mapping (memberNodes ms)
  | _ => .null

def itemNodes : List Value → List Node
  | [] => []
  | v :: vs => v.node :: itemNodes vs

def memberNodes : Members → List (Node × Node)
  | [] => []
  | (k, v) :: ms => (.scalar Tag.text k.plainText, v.node) :: memberNodes ms

end

def Yaml.Token.Opens : Token → Prop
  | scalar .. => True
  | flowSequence => True
  | flowMapping => True
  | _ => False

def Yaml.Opening (ts : List Token) : Prop := ∃ t us, ts = t :: us ∧ t.Opens

theorem Yaml.Opening.append {ts : List Token} (h : Opening ts) (us : List Token) : Opening (ts ++ us) := by
  obtain ⟨t, vs, ht, hopens⟩ := h
  exact ⟨t, vs ++ us, by rw [ht, List.cons_append], hopens⟩

theorem Yaml.Opening.length_pos {ts : List Token} (h : Opening ts) : 0 < ts.length := by
  obtain ⟨t, us, ht, -⟩ := h
  simp [ht]

theorem Value.IsBasicJson.opens {v : Value} (h : v.IsBasicJson) : Opening v.tokens := by
  cases h with
  | text hs => exact ⟨_, _, rfl, trivial⟩
  | @scalar s hs ht =>
    refine ⟨s.token, [], rfl, ?_⟩
    cases s
    all_goals trivial
  | list hvs => exact ⟨_, _, rfl, trivial⟩
  | mapping => exact ⟨_, _, rfl, trivial⟩

namespace Yaml.Compose

variable {handles : List (String × String)} {fuel : Nat} {block unindented first : Bool} {t u : Token} {ts : List Token}
  {anchors : List (String × Option Node)} {α β : Type}

/-! ## Tokens -/

theorem run_bind_some {m : Compose α} {f : α → Compose β} {a : α} {p q : Pending} (h : m.run p = some (a, q)) :
    (m >>= f).run p = (f a).run q := by
  rw [StateT.run_bind, h]
  rfl

theorem run_bind_none {m : Compose α} {p : Pending} (h : m.run p = none) (f : α → Compose β) : (m >>= f).run p = none := by
  rw [StateT.run_bind, h]
  rfl

theorem isNext_run (us : List Token) : (isNext us).run ⟨t :: ts, anchors⟩ = some (us.contains t, ⟨t :: ts, anchors⟩) := rfl

theorem taken_same : (taken t).run ⟨t :: ts, anchors⟩ = some (true, ⟨ts, anchors⟩) := by
  rw [taken, run_bind_some (isNext_run [t])]
  simp [take]

theorem taken_other (h : t ≠ u) : (taken u).run ⟨t :: ts, anchors⟩ = some (false, ⟨t :: ts, anchors⟩) := by
  rw [taken, run_bind_some (isNext_run [u])]
  simp [h]

theorem run_taken_other (h : t ≠ u) (m n : Compose α) :
    (taken u >>= fun b => if b = true then m else n).run ⟨t :: ts, anchors⟩ = n.run ⟨t :: ts, anchors⟩ :=
  run_bind_some (taken_other h)

theorem run_taken_same (m n : Compose α) :
    (taken t >>= fun b => if b = true then m else n).run ⟨t :: ts, anchors⟩ = m.run ⟨ts, anchors⟩ :=
  run_bind_some taken_same

theorem expect_same : (expect t).run ⟨t :: ts, anchors⟩ = some ((), ⟨ts, anchors⟩) := by
  rw [expect, run_bind_some taken_same]
  rfl

theorem expect_other (h : t ≠ u) : (expect u).run ⟨t :: ts, anchors⟩ = none := by
  rw [expect, run_bind_some (taken_other h)]
  rfl

theorem run_entry {close : Token} (hclose : Token.flowEntry ≠ close) (ht : t ≠ close) (m n : Compose α) :
    (taken close >>= fun b => if b = true then m else if (!first) = true then expect .flowEntry >>= fun _ => n else n).run
      ⟨entryMark first ++ t :: ts, anchors⟩ = n.run ⟨t :: ts, anchors⟩ := by
  cases first with
  | true => exact run_bind_some (taken_other ht)
  | false => exact (run_bind_some (taken_other hclose)).trans (run_bind_some expect_same)

theorem optional_run {us : List Token} (h : us.contains t = false) (m : Compose Node) :
    (optional us m).run ⟨t :: ts, anchors⟩ = m.run ⟨t :: ts, anchors⟩ := by
  rw [optional, run_bind_some (isNext_run us), h]
  rfl

theorem opens_ne (h : t.Opens) (hu : ¬ u.Opens) : t ≠ u := by
  rintro rfl
  exact hu h

theorem node_run (h : t.Opens) : (node handles (fuel + 1) block unindented).run ⟨t :: ts, anchors⟩ =
    (content handles fuel block unindented none false).run ⟨t :: ts, anchors⟩ := by
  have hpeek : peek.run ⟨t :: ts, anchors⟩ = some (some t, ⟨t :: ts, anchors⟩) := rfl
  have hproperties : (properties handles).run ⟨t :: ts, anchors⟩ = some ((none, none), ⟨t :: ts, anchors⟩) := by
    cases t with
    | scalar => rfl
    | flowSequence => rfl
    | flowMapping => rfl
    | _ => cases h
  rw [node, run_bind_some hpeek]
  split
  · rename_i he
    cases he
    cases h
  · rw [run_bind_some hproperties]
    simp [openAnchor, closeAnchor]

theorem content_sequence :
    (content handles (fuel + 1) block unindented none false).run ⟨.flowSequence :: ts, anchors⟩ =
      ((flowItems handles fuel true).run ⟨ts, anchors⟩).map fun x => (.sequence Tag.sequence x.1, x.2) := by
  have hpeek : peek.run ⟨.flowSequence :: ts, anchors⟩ = some (some .flowSequence, ⟨.flowSequence :: ts, anchors⟩) := rfl
  have htake : take.run ⟨.flowSequence :: ts, anchors⟩ = some ((), ⟨ts, anchors⟩) := rfl
  rw [content, run_bind_some hpeek, run_bind_some htake]
  simp [collectionTag]

theorem content_mapping :
    (content handles (fuel + 1) block unindented none false).run ⟨.flowMapping :: ts, anchors⟩ =
      ((flowEntries handles fuel true).run ⟨ts, anchors⟩).map fun x => (.mapping Tag.mapping x.1, x.2) := by
  have hpeek : peek.run ⟨.flowMapping :: ts, anchors⟩ = some (some .flowMapping, ⟨.flowMapping :: ts, anchors⟩) := rfl
  have htake : take.run ⟨.flowMapping :: ts, anchors⟩ = some ((), ⟨ts, anchors⟩) := rfl
  rw [content, run_bind_some hpeek, run_bind_some htake]
  simp [collectionTag]

theorem flowItems_end : (flowItems handles (fuel + 1) first).run ⟨.flowSequenceEnd :: ts, anchors⟩ = some ([], ⟨ts, anchors⟩) := by
  rw [flowItems, run_bind_some taken_same]
  rfl

theorem flowItems_item (h : Opening ts) : (flowItems handles (fuel + 1) first).run ⟨entryMark first ++ ts, anchors⟩ =
    (do
      let n ← node handles fuel false false
      return n :: (← flowItems handles fuel false) : Compose (List Node)).run ⟨ts, anchors⟩ := by
  obtain ⟨t, us, rfl, h⟩ := h
  have hkey : t ≠ .key := opens_ne h id
  have hend : t ≠ .flowSequenceEnd := opens_ne h id
  rw [flowItems, run_entry (by simp) hend, run_taken_other hkey, run_taken_other hend]

theorem flowEntries_end :
    (flowEntries handles (fuel + 1) first).run ⟨.flowMappingEnd :: ts, anchors⟩ = some ([], ⟨ts, anchors⟩) := by
  rw [flowEntries, run_bind_some taken_same]
  rfl

theorem flowEntries_key (h : Opening ts) (key : String) :
    (flowEntries handles (fuel + 3) first).run ⟨entryMark first ++ .key :: .scalar key false :: .value :: ts, anchors⟩ =
      (do
        let v ← node handles (fuel + 2) false false
        return (.scalar Tag.text key, v) :: (← flowEntries handles (fuel + 2) false) :
          Compose (List (Node × Node))).run ⟨ts, anchors⟩ := by
  obtain ⟨t, us, rfl, h⟩ := h
  have hkey : (optional [.value, .flowEntry, .flowMappingEnd] (node handles (fuel + 2) false false)).run
      ⟨.scalar key false :: .value :: t :: us, anchors⟩ = some (.scalar Tag.text key, ⟨.value :: t :: us, anchors⟩) := by
    rw [optional_run (by simp), node_run (t := .scalar key false) trivial]
    rfl
  have hends : [Token.flowEntry, .flowMappingEnd].contains t = false := by
    have hentry := opens_ne h (u := .flowEntry) id
    have hend := opens_ne h (u := .flowMappingEnd) id
    simp [hentry, hend]
  have hvalue (m : Compose Node) : (optional [.flowEntry, .flowMappingEnd] m).run ⟨t :: us, anchors⟩ =
      m.run ⟨t :: us, anchors⟩ := optional_run hends m
  rw [flowEntries, run_entry (by simp) (by simp), run_taken_same, run_bind_some hkey, run_taken_same, StateT.run_bind,
    StateT.run_bind, hvalue]

/-- Behind a text that is no key a colon stands where an entry ends. -/
theorem flowEntries_lost (key : String) : (flowEntries handles (fuel + 3) first).run
    ⟨entryMark first ++ .scalar key false :: .value :: ts, anchors⟩ = none := by
  have hnode : (node handles (fuel + 2) false false).run ⟨.scalar key false :: .value :: ts, anchors⟩ =
      some (.scalar Tag.text key, ⟨.value :: ts, anchors⟩) := by
    rw [node_run (t := .scalar key false) trivial]
    rfl
  have hnext : (flowEntries handles (fuel + 2) false).run ⟨.value :: ts, anchors⟩ = none := by
    rw [flowEntries, run_taken_other (by simp)]
    exact run_bind_none (expect_other (by simp)) _
  rw [flowEntries, run_entry (by simp) (by simp), run_taken_other (by simp), run_taken_other (by simp), run_bind_some hnode]
  exact run_bind_none hnext _

/-! ## Values -/

/-- The tokens of a value are composed to its node if its keys fit, whatever follows. -/
def Composed (v : Value) : Prop :=
  ∀ {handles : List (String × String)} {fuel : Nat} {block unindented : Bool} {ts : List Token}
    {anchors : List (String × Option Node)}, 2 * v.tokens.length ≤ fuel →
    (node handles fuel block unindented).run ⟨v.tokens ++ ts, anchors⟩ =
      if v.keysFit then some (v.node, ⟨ts, anchors⟩) else none

theorem length_itemTokens_pos (vs : List Value) (first : Bool) : 0 < (itemTokens first vs).length := by
  induction vs generalizing first with
  | nil => simp [itemTokens]
  | cons v vs ih =>
    have hrest := ih false
    rw [itemTokens, List.length_append, List.length_append]
    omega

theorem length_memberTokens_pos (ms : Members) (first : Bool) : 0 < (memberTokens first ms).length := by
  induction ms generalizing first with
  | nil => simp [memberTokens]
  | cons m ms ih =>
    have hrest := ih false
    rw [memberTokens, List.length_append, List.length_append, List.length_append]
    omega

theorem flowItems_run {vs : List Value} (hvs : ∀ v ∈ vs, Composed v) (ho : ∀ v ∈ vs, Opening v.tokens)
    (hf : 2 * (itemTokens first vs).length ≤ fuel) :
    (flowItems handles fuel first).run ⟨itemTokens first vs ++ ts, anchors⟩ =
      if vs.all Value.keysFit then some (itemNodes vs, ⟨ts, anchors⟩) else none := by
  induction vs generalizing fuel first with
  | nil =>
    obtain ⟨fuel, rfl⟩ : ∃ n, fuel = n + 1 := ⟨fuel - 1, by simp [itemTokens] at hf; omega⟩
    exact flowItems_end
  | cons v vs ih =>
    obtain ⟨hv, hvs⟩ := List.forall_mem_cons.mp hvs
    obtain ⟨hopens, ho⟩ := List.forall_mem_cons.mp ho
    rw [itemTokens, List.length_append, List.length_append] at hf
    have hlen := length_itemTokens_pos vs false
    have hone := hopens.length_pos
    obtain ⟨fuel, rfl⟩ : ∃ n, fuel = n + 1 := ⟨fuel - 1, by omega⟩
    have hnode : (node handles fuel false false).run ⟨v.tokens ++ (itemTokens false vs ++ ts), anchors⟩ =
        if v.keysFit then some (v.node, ⟨itemTokens false vs ++ ts, anchors⟩) else none := hv (by omega)
    have hrest : (flowItems handles fuel false).run ⟨itemTokens false vs ++ ts, anchors⟩ =
        if vs.all Value.keysFit then some (itemNodes vs, ⟨ts, anchors⟩) else none := ih hvs ho (by omega)
    rw [itemTokens, List.append_assoc, List.append_assoc, flowItems_item (hopens.append _), StateT.run_bind, hnode,
      List.all_cons]
    cases v.keysFit with
    | false => rfl
    | true =>
      rw [Bool.true_and, if_pos rfl, Option.bind_eq_bind, Option.bind_some, StateT.run_bind, hrest]
      cases vs.all Value.keysFit
      all_goals rfl

theorem flowEntries_run {ms : Members} (hk : ∀ m ∈ ms, ∃ n, m.1 = .text n) (hms : ∀ m ∈ ms, Composed m.2)
    (ho : ∀ m ∈ ms, Opening m.2.tokens) (hf : 2 * (memberTokens first ms).length ≤ fuel) :
    (flowEntries handles fuel first).run ⟨memberTokens first ms ++ ts, anchors⟩ =
      if ms.all (fun m => m.1.fitsKey && m.2.keysFit) then some (memberNodes ms, ⟨ts, anchors⟩) else none := by
  induction ms generalizing fuel first with
  | nil =>
    obtain ⟨fuel, rfl⟩ : ∃ n, fuel = n + 1 := ⟨fuel - 1, by simp [memberTokens] at hf; omega⟩
    exact flowEntries_end
  | cons m ms ih =>
    obtain ⟨k, v⟩ := m
    obtain ⟨n, hn⟩ := hk (k, v) List.mem_cons_self
    obtain rfl : k = .text n := hn
    obtain ⟨-, hk⟩ := List.forall_mem_cons.mp hk
    obtain ⟨hv, hms⟩ := List.forall_mem_cons.mp hms
    obtain ⟨hopens, ho⟩ := List.forall_mem_cons.mp ho
    replace hv : Composed v := hv
    have hlen := length_memberTokens_pos ms false
    have hone := hopens.length_pos
    have hplain : (Scalar.text n).plainText = n := rfl
    rw [memberTokens, List.length_append, List.length_append, List.length_append, hplain, nameTokens] at hf
    rw [memberTokens, List.append_assoc, List.append_assoc, List.append_assoc, List.all_cons, hplain, nameTokens]
    by_cases hfit : (jsonText n).toList.length ≤ longestKey
    · have hfits : (Scalar.text n).fitsKey = true := by simpa [Scalar.fitsKey, hplain] using hfit
      rw [if_pos hfit] at hf ⊢
      obtain ⟨fuel, rfl⟩ : ∃ n, fuel = n + 3 := ⟨fuel - 3, by simp at hf; omega⟩
      have hnode : (node handles (fuel + 2) false false).run ⟨v.tokens ++ (memberTokens false ms ++ ts), anchors⟩ =
          if v.keysFit then some (v.node, ⟨memberTokens false ms ++ ts, anchors⟩) else none :=
        hv (by simp at hf; omega)
      have hrest : (flowEntries handles (fuel + 2) false).run ⟨memberTokens false ms ++ ts, anchors⟩ =
          if ms.all (fun m => m.1.fitsKey && m.2.keysFit) then some (memberNodes ms, ⟨ts, anchors⟩) else none :=
        ih hk hms ho (by simp at hf; omega)
      rw [hfits, Bool.true_and]
      refine (flowEntries_key (hopens.append _) n).trans ?_
      rw [StateT.run_bind, hnode]
      cases v.keysFit with
      | false => rfl
      | true =>
        rw [Bool.true_and, if_pos rfl, Option.bind_eq_bind, Option.bind_some, StateT.run_bind, hrest]
        cases ms.all fun m => m.1.fitsKey && m.2.keysFit
        all_goals rfl
    · have hfits : (Scalar.text n).fitsKey = false := by simpa [Scalar.fitsKey, hplain] using hfit
      rw [if_neg hfit] at hf ⊢
      obtain ⟨fuel, rfl⟩ : ∃ n, fuel = n + 3 := ⟨fuel - 3, by simp at hf; omega⟩
      rw [hfits]
      exact flowEntries_lost n

theorem composed {v : Value} (h : v.IsBasicJson) : Composed v := by
  induction h with
  | text hs =>
    intro handles fuel block unindented ts anchors hf
    obtain ⟨fuel, rfl⟩ : ∃ n, fuel = n + 2 := ⟨fuel - 2, by simp [Value.tokens] at hf; omega⟩
    exact node_run trivial
  | @scalar s hs ht =>
    intro handles fuel block unindented ts anchors hf
    obtain ⟨fuel, rfl⟩ : ∃ n, fuel = n + 2 := ⟨fuel - 2, by simp [Value.tokens] at hf; omega⟩
    rw [Value.tokens, Value.node, Scalar.token_eq ht, Scalar.node_eq ht]
    exact node_run trivial
  | @list vs hvs ih =>
    intro handles fuel block unindented ts anchors hf
    rw [Value.tokens, List.length_cons] at hf
    obtain ⟨fuel, rfl⟩ : ∃ n, fuel = n + 2 := ⟨fuel - 2, by omega⟩
    have hitems : (flowItems handles fuel true).run ⟨itemTokens true vs ++ ts, anchors⟩ =
        if vs.all Value.keysFit then some (itemNodes vs, ⟨ts, anchors⟩) else none :=
      flowItems_run ih (fun v hv => (hvs v hv).opens) (by omega)
    rw [Value.tokens, List.cons_append, node_run (t := .flowSequence) trivial, content_sequence, hitems, Value.keysFit_list]
    cases vs.all Value.keysFit
    all_goals rfl
  | @mapping ms hk _ hms ih =>
    intro handles fuel block unindented ts anchors hf
    rw [Value.tokens, List.length_cons] at hf
    obtain ⟨fuel, rfl⟩ : ∃ n, fuel = n + 2 := ⟨fuel - 2, by omega⟩
    have htexts : ∀ m ∈ ms, ∃ n, m.1 = .text n := fun m hm => (hk m hm).imp fun n hn => hn.1
    have hentries : (flowEntries handles fuel true).run ⟨memberTokens true ms ++ ts, anchors⟩ =
        if ms.all (fun m => m.1.fitsKey && m.2.keysFit) then some (memberNodes ms, ⟨ts, anchors⟩) else none :=
      flowEntries_run htexts ih (fun m hm => (hms m hm).opens) (by omega)
    rw [Value.tokens, List.cons_append, node_run (t := .flowMapping) trivial, content_mapping, hentries, Value.keysFit_mapping]
    cases ms.all fun m => m.1.fitsKey && m.2.keysFit
    all_goals rfl

theorem stream_run {v : Value} (h : v.IsBasicJson) (hf : 2 * v.tokens.length < fuel) :
    (stream fuel).run ⟨v.tokens ++ [.streamEnd], []⟩ =
      if v.keysFit then some (some v.node, ⟨[], []⟩) else none := by
  obtain ⟨t, us, ht, hopens⟩ := h.opens
  obtain ⟨fuel, rfl⟩ : ∃ n, fuel = n + 1 := ⟨fuel - 1, by omega⟩
  have hpeek : peek.run ⟨v.tokens ++ [.streamEnd], []⟩ = some (some t, ⟨v.tokens ++ [.streamEnd], []⟩) := by
    rw [ht]
    rfl
  have hbare : isBare (some t) = true := by
    cases t
    all_goals first | rfl | cases hopens
  have hnode : (node commonHandles (fuel + 1) true false).run ⟨v.tokens ++ [.streamEnd], []⟩ =
      if v.keysFit then some (v.node, ⟨[.streamEnd], []⟩) else none := composed h (by omega)
  have hends : (dropEnds (fuel + 1)).run ⟨[.streamEnd], []⟩ = some ((), ⟨[.streamEnd], []⟩) := by
    rw [dropEnds, run_taken_other (by simp)]
    rfl
  rw [stream, run_bind_some hpeek, hbare, if_pos rfl]
  cases hfit : v.keysFit with
  | false =>
    rw [hfit] at hnode
    exact run_bind_none hnode _
  | true =>
    rw [hfit] at hnode
    rw [run_bind_some hnode, pure_bind, run_bind_some hends, run_bind_some expect_same]
    rfl

end Yaml.Compose

/-- The text of a value of JSON is a document of its node, if its keys fit. -/
theorem Yaml.document?_json {v : Value} (h : v.IsBasicJson) :
    document? (v.json .line).toList = if v.keysFit then some (some v.node) else none := by
  have hrun := Compose.stream_run h (show 2 * v.tokens.length < 4 * (v.tokens ++ [Token.streamEnd]).length + 8 by simp; omega)
  rw [document?, tokens?_json h, Option.bind_eq_bind, Option.bind_some, StateT.run']
  refine (congrArg (fun r => Prod.fst <$> r) hrun).trans ?_
  cases v.keysFit
  all_goals rfl

end Workflow
