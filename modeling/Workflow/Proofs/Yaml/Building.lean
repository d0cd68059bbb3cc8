import Mathlib.Data.List.Nodup
import Workflow.Proofs.Yaml.Composing
import Workflow.Yaml

/-!
# The value of a text of JSON

The text of a value of JSON is read as that value, but for numbers without a point, which are read as their texts. A key
that is too long makes the text malformed.
-/

namespace Workflow

open Yaml

/-! ## Members -/

namespace Members

variable {ms : Members}

theorem sameKey_text (a b : String) : (Scalar.text a).sameKey (.text b) = (a == b) := by
  rw [Bool.eq_iff_iff]
  simp [Scalar.sameKey, Scalar.keyNumber?]

theorem put_of_notMem {key : Scalar} (h : ∀ m ∈ ms, m.1.sameKey key = false) (v : Value) :
    put key v ms = ms ++ [(key, v)] := by
  induction ms with
  | nil => rfl
  | cons m ms ih =>
    obtain ⟨hm, hms⟩ := List.forall_mem_cons.mp h
    rw [put, hm, if_neg Bool.false_ne_true, ih hms, List.cons_append]

theorem ofList_of_nodup (hk : ∀ m ∈ ms, ∃ n, m.1 = .text n) (hn : (ms.map Prod.fst).Nodup) : ofList ms = ms := by
  have hfold (acc : Members) {ms : Members} (hk : ∀ m ∈ acc ++ ms, ∃ n, m.1 = .text n) (hn : ((acc ++ ms).map Prod.fst).Nodup) :
      ms.foldl (fun acc m => put m.1 m.2 acc) acc = acc ++ ms := by
    induction ms generalizing acc with
    | nil => simp
    | cons m ms ih =>
      have hnew : ∀ n ∈ acc, n.1.sameKey m.1 = false := by
        intro n hacc
        have hne : n.1 ≠ m.1 := by
          rw [List.map_append, List.nodup_append] at hn
          exact hn.2.2 _ (List.mem_map_of_mem hacc) _ (by simp)
        obtain ⟨a, ha⟩ := hk n (List.mem_append_left _ hacc)
        obtain ⟨b, hb⟩ := hk m (by simp)
        rw [ha, hb] at hne ⊢
        rw [sameKey_text, beq_eq_false_iff_ne]
        rintro rfl
        exact hne rfl
      rw [List.foldl_cons, put_of_notMem hnew, ih _ (by simpa using hk) (by simpa using hn), List.append_assoc,
        List.singleton_append]
  exact hfold [] hk hn

end Members

/-! ## Values -/

mutual

/-- A value of JSON as a document reads it. -/
def Value.respelt : Value → Value
  | .scalar s => .scalar s.respelt
  | .list vs => .list (respeltItems vs)
  | .mapping ms => .mapping (respeltMembers ms)
  | v => v

def respeltItems : List Value → List Value
  | [] => []
  | v :: vs => v.respelt :: respeltItems vs

def respeltMembers : Members → Members
  | [] => []
  | (k, v) :: ms => (k, v.respelt) :: respeltMembers ms

end

theorem respeltItems_eq (vs : List Value) : respeltItems vs = vs.map Value.respelt := by
  induction vs with
  | nil => rw [respeltItems, List.map_nil]
  | cons v vs ih => rw [respeltItems, ih, List.map_cons]

theorem respeltMembers_eq (ms : Members) : respeltMembers ms = ms.map fun m => (m.1, m.2.respelt) := by
  induction ms with
  | nil => rw [respeltMembers, List.map_nil]
  | cons m ms ih => rw [respeltMembers, ih, List.map_cons]

namespace Yaml.Tree

theorem mergeEntries_eq {es : List (Tree × Tree)} (h : ∀ e ∈ es, ∃ s, e.1 = .scalar Tag.text s) :
    mergeEntries es = some es := by
  have htext : Tag.text ≠ Tag.merge ∧ Tag.text ≠ Tag.value := by decide
  have hmerge : ∀ e ∈ es, e.1.isMerge = false := by
    intro e he
    obtain ⟨s, hs⟩ := h e he
    rw [hs, isMerge, beq_eq_false_iff_ne]
    exact htext.1
  have hkey : ∀ e ∈ es, (e.1.asKey, e.2) = e := by
    intro e he
    obtain ⟨s, hs⟩ := h e he
    obtain ⟨k, v⟩ := e
    obtain rfl : k = .scalar Tag.text s := hs
    rw [asKey, if_neg htext.2]
  have hnone : es.filter (fun e => e.1.isMerge) = [] := by
    rw [List.filter_eq_nil_iff]
    intro e he
    simp [hmerge e he]
  have hown : es.filter (fun e => !e.1.isMerge) = es := by
    rw [List.filter_eq_self]
    intro e he
    simp [hmerge e he]
  have hmap : es.map (fun e => (e.1.asKey, e.2)) = es := by rw [List.map_congr_left hkey, List.map_id']
  simp only [mergeEntries, hnone, hown, hmap]
  rfl

/-- Whatever its distance from the root, the tree of a value is built as that value with its numbers respelt. -/
def Rebuilds (v : Value) : Prop := ∀ level : Nat, (ofNode v.node).build level = .ok v.respelt

theorem buildItems_eq {vs : List Value} (h : ∀ v ∈ vs, Rebuilds v) (level : Nat) :
    buildItems level (ofNodes (itemNodes vs)) = .ok (respeltItems vs) := by
  induction vs with
  | nil => rw [itemNodes, ofNodes, buildItems, respeltItems]
  | cons v vs ih =>
    obtain ⟨hv, hvs⟩ := List.forall_mem_cons.mp h
    rw [itemNodes, ofNodes, buildItems, hv, ih hvs, respeltItems]
    rfl

theorem build_text (level : Nat) (s : String) : (scalar Tag.text s).build level = .ok (.text s) := by
  have htag : (isListTag Tag.text || isMapTag Tag.text) = false := by decide
  rw [build, htag, if_neg Bool.false_ne_true, scalar_text]

theorem ofText_scalar (w : String) : (isListTag (Tag.ofText w) || isMapTag (Tag.ofText w)) = false := by
  simp only [Tag.ofText]
  repeat' split
  all_goals decide

theorem buildEntries_eq {ms : Members} (hk : ∀ m ∈ ms, ∃ n, m.1 = .text n) (h : ∀ m ∈ ms, Rebuilds m.2) (level : Nat) :
    buildEntries level (ofEntries (memberNodes ms)) = .ok (respeltMembers ms) := by
  induction ms with
  | nil => rw [memberNodes, ofEntries, buildEntries, respeltMembers]
  | cons m ms ih =>
    obtain ⟨k, v⟩ := m
    obtain ⟨n, hn⟩ := hk (k, v) List.mem_cons_self
    obtain rfl : k = .text n := hn
    obtain ⟨hv, hms⟩ := List.forall_mem_cons.mp h
    have hplain : (Scalar.text n).plainText = n := rfl
    rw [memberNodes, ofEntries, hplain, ofNode, buildEntries, build_text, hv, ih (fun m hm => hk m (by simp [hm])) hms,
      respeltMembers]
    rfl

theorem textKeys_memberNodes (ms : Members) : ∀ e ∈ ofEntries (memberNodes ms), ∃ s, e.1 = .scalar Tag.text s := by
  induction ms with
  | nil =>
    rw [memberNodes, ofEntries]
    simp
  | cons m ms ih =>
    rw [memberNodes, ofEntries, ofNode]
    exact List.forall_mem_cons.mpr ⟨⟨_, rfl⟩, ih⟩

theorem keys_respeltMembers (ms : Members) : (respeltMembers ms).map Prod.fst = ms.map Prod.fst := by
  rw [respeltMembers_eq, List.map_map]
  rfl

theorem rebuilds {v : Value} (h : v.IsBasicJson) : Rebuilds v := by
  induction h with
  | text hs =>
    intro level
    exact build_text level _
  | @scalar s hs ht =>
    intro level
    rw [Value.node, Scalar.node_eq ht, ofNode, build, ofText_scalar, if_neg Bool.false_ne_true, hs.read ht, Value.respelt]
  | list _ ih =>
    intro level
    rw [Value.node, ofNode, build, if_pos rfl, buildItems_eq ih]
    rfl
  | @mapping ms hk hn _ ih =>
    intro level
    have htexts : ∀ m ∈ ms, ∃ n, m.1 = .text n := fun m hm => (hk m hm).imp fun n hn => hn.1
    have hmerge : mergeEntries (ofEntries (memberNodes ms)) = some (ofEntries (memberNodes ms)) :=
      mergeEntries_eq (textKeys_memberNodes ms)
    have hkeys : ∀ m ∈ respeltMembers ms, ∃ n, m.1 = .text n := by
      intro m hm
      obtain ⟨other, ho, he⟩ := List.mem_map.mp (keys_respeltMembers ms ▸ List.mem_map_of_mem (f := Prod.fst) hm)
      exact he ▸ htexts other ho
    have hlist := Members.ofList_of_nodup hkeys ((keys_respeltMembers ms).symm ▸ hn)
    have hmembers : buildMembers (level + 1) (ofEntries (memberNodes ms)) = .ok (respeltMembers ms) := by
      rw [buildMembers, buildEntries_eq htexts ih]
      exact congrArg Except.ok hlist
    have hmap : isMapTag Tag.mapping = true := by decide
    have hset : Tag.mapping ≠ Tag.set := by decide
    rw [Value.node, ofNode, hmerge, build, hmap, if_pos rfl]
    simp only [hmembers, hset, if_false]
    rw [Value.respelt]
    rfl

end Yaml.Tree

/-- What the text of a value of JSON is read as. -/
theorem Yaml.read_json {v : Value} (h : v.IsBasicJson) :
    Yaml.read (v.json .line) = if v.keysFit then .ok v.respelt else .error .malformed := by
  rw [read, document?_json h]
  cases v.keysFit with
  | false => rfl
  | true =>
    simp only [if_true, Tree.rebuilds h 0]

end Workflow
