import Mathlib.Data.List.Forall2
import Mathlib.Data.List.Perm.Basic
import Workflow.Proofs.Text.Digits
import Workflow.Proofs.Text.Escapes
import Workflow.Proofs.Text.Units
import Workflow.Proofs.Value.Canonical

/-!
# What a canonical text tells

The canonical text of a value without fractions tells the value, up to the order of members and to whether a sequence is
a list or a tuple.
-/

namespace Workflow

/-! ## Values -/

namespace Value

def sequence? : Value → Option (List Value)
  | list items => some items
  | tuple items => some items
  | _ => none

/-- The values that have a text of their own: no fractions, and no integer beyond those that a binary number holds. -/
inductive IsExact : Value → Prop
  | null : IsExact .null
  | bool (b : Bool) : IsExact (.bool b)
  | int {n : Int} : IsSafe n → IsExact (.int n)
  | text (s : String) : IsExact (.text s)
  | items {v : Value} {vs : List Value} : v.sequence? = some vs → (∀ w ∈ vs, IsExact w) → IsExact v
  | mapping {ms : Members} {names : List String} : ms.map Prod.fst = names.map Scalar.text → names.Nodup →
      (∀ m ∈ ms, IsExact m.2) → IsExact (.mapping ms)

/-- Equal up to the order of members, tuples counting as lists. -/
inductive Alike : Value → Value → Prop
  | scalar (s : Scalar) : Alike (.scalar s) (.scalar s)
  | items {v w : Value} {vs ws : List Value} : v.sequence? = some vs → w.sequence? = some ws → vs.length = ws.length →
      (∀ a b, (a, b) ∈ vs.zip ws → Alike a b) → Alike v w
  | mapping {ms ns others : Members} : ms.map Prod.fst = others.map Prod.fst →
      (∀ m n, (m, n) ∈ ms.zip others → Alike m.2 n.2) → others.Perm ns → Alike (.mapping ms) (.mapping ns)

theorem IsExact.of_sequence {v : Value} {vs : List Value} (h : v.IsExact) (hs : v.sequence? = some vs) :
    ∀ w ∈ vs, w.IsExact := by
  cases h with
  | items ht hws =>
    rw [hs] at ht
    cases ht
    exact hws
  | _ => cases hs

theorem IsExact.of_mapping {ms : Members} (h : (Value.mapping ms).IsExact) :
    ∃ names : List String, ms.map Prod.fst = names.map Scalar.text ∧ names.Nodup ∧ ∀ m ∈ ms, m.2.IsExact := by
  cases h with
  | mapping hk hn hms => exact ⟨_, hk, hn, hms⟩
  | items hs _ => cases hs

/-- A member of one mapping and one of another have one key and values alike. -/
def AlikeMembers (m n : Scalar × Value) : Prop := m.1 = n.1 ∧ m.2.Alike n.2

theorem Alike.of_items {v w : Value} {vs ws : List Value} (hv : v.sequence? = some vs) (hw : w.sequence? = some ws)
    (h : List.Forall₂ Alike vs ws) : v.Alike w := by
  obtain ⟨hlen, hzip⟩ := List.forall₂_iff_zip.mp h
  exact .items hv hw hlen fun a b hab => hzip hab

theorem keys_of_alike {ms ns : Members} (h : List.Forall₂ AlikeMembers ms ns) : ms.map Prod.fst = ns.map Prod.fst := by
  induction h with
  | nil => rfl
  | cons hm _ ih => rw [List.map_cons, List.map_cons, hm.1, ih]

theorem Alike.of_members {ms ns others : Members} (h : List.Forall₂ AlikeMembers ms others) (hp : others.Perm ns) :
    Alike (.mapping ms) (.mapping ns) := by
  obtain ⟨-, hzip⟩ := List.forall₂_iff_zip.mp h
  exact .mapping (keys_of_alike h) (fun m n hmn => (hzip hmn).2) hp

abbrev Labelled := String × List Char

def inOrder (ms : List Labelled) : List Labelled := ms.mergeSort fun a b => canonicalKeyBefore a.1 b.1

def memberChars (m : Labelled) : List Char := canonicalText m.1 ++ ':' :: m.2

mutual

@[simp]
def chars : Value → List Char
  | .scalar .null => "null".toList
  | .scalar (.bool b) => (if b then "true" else "false").toList
  | .scalar (.int n) => (toString n).toList
  | .scalar (.text s) => canonicalText s
  | .scalar _ => []
  | .list vs => '[' :: separated (itemChars vs) ++ [']']
  | .tuple vs => '[' :: separated (itemChars vs) ++ [']']
  | .set _ => []
  | .mapping ms => '\x7b' :: separated ((inOrder (labels ms)).map memberChars) ++ ['\x7d']

def itemChars : List Value → List (List Char)
  | [] => []
  | v :: rest => chars v :: itemChars rest

def labels : Members → List Labelled
  | [] => []
  | (k, v) :: rest => (k.plainText, chars v) :: labels rest

end

theorem itemChars_eq (vs : List Value) : itemChars vs = vs.map chars := by
  induction vs with
  | nil => rfl
  | cons v vs ih => rw [itemChars, ih, List.map_cons]

theorem labels_eq (ms : Members) : labels ms = ms.map fun m => (m.1.plainText, m.2.chars) := by
  induction ms with
  | nil => rfl
  | cons m ms ih => rw [labels, ih, List.map_cons]

theorem chars_of_sequence {v : Value} {vs : List Value} (h : v.sequence? = some vs) :
    v.chars = '[' :: separated (vs.map chars) ++ [']'] := by
  cases v with
  | list us | tuple us =>
    cases h
    rw [chars, itemChars_eq]
  | scalar s | set us | mapping ms => cases h

/-! ## Writing -/

def Written (v : Value) : Prop := ∃ j, v.toJson = .ok j ∧ j.canonical = .ok v.chars

theorem itemsToJson_written {vs : List Value} (h : ∀ v ∈ vs, v.Written) :
    ∃ js, itemsToJson vs = .ok js ∧ Json.canonicalItems js = .ok (vs.map chars) := by
  induction vs with
  | nil => exact ⟨[], rfl, rfl⟩
  | cons v vs ih =>
    obtain ⟨⟨j, hj, hc⟩, hvs⟩ := List.forall_mem_cons.mp h
    obtain ⟨js, hjs, hcs⟩ := ih hvs
    exact ⟨j :: js, by simp [itemsToJson, hj, hjs], by simp [Json.canonicalItems, hc, hcs]⟩

theorem membersToJson_written {ms : Members} (hk : ∀ m ∈ ms, (scalar m.1).isWritable = true) (h : ∀ m ∈ ms, m.2.Written) :
    ∃ js, membersToJson ms = .ok js ∧ js.map Prod.fst = ms.map (fun m => m.1.plainText) ∧
      Json.canonicalMembers js = .ok (labels ms) := by
  induction ms with
  | nil => exact ⟨[], rfl, rfl, rfl⟩
  | cons m ms ih =>
    obtain ⟨hkey, hks⟩ := List.forall_mem_cons.mp hk
    obtain ⟨⟨j, hj, hc⟩, hms⟩ := List.forall_mem_cons.mp h
    obtain ⟨js, hjs, hkeys, hcs⟩ := ih hks hms
    have htext : (scalar m.1).writtenText = .ok m.1.plainText := if_pos hkey
    exact ⟨(m.1.plainText, j) :: js, by simp [membersToJson, htext, Except.mapError, hj, hjs], by simp [hkeys],
      by simp [Json.canonicalMembers, labels, hc, hcs]⟩

theorem toJson_of_sequence {v : Value} {vs : List Value} (h : v.sequence? = some vs) :
    v.toJson = do return .list (← itemsToJson vs) := by
  cases v with
  | list us | tuple us =>
    cases h
    rw [toJson]
  | scalar s | set us | mapping ms => cases h

theorem plainTexts_of_keys {ms : Members} {names : List String} (h : ms.map Prod.fst = names.map Scalar.text) :
    ms.map (fun m => m.1.plainText) = names := by
  have hmap : ms.map (fun m => m.1.plainText) = (ms.map Prod.fst).map Scalar.plainText := by simp
  rw [hmap, h, List.map_map]
  exact List.map_id names

theorem isWritable_of_keys {ms : Members} {names : List String} (h : ms.map Prod.fst = names.map Scalar.text) :
    ∀ m ∈ ms, (scalar m.1).isWritable = true := by
  intro m hm
  have hkey : m.1 ∈ names.map Scalar.text := h ▸ List.mem_map_of_mem hm
  obtain ⟨name, -, hname⟩ := List.mem_map.mp hkey
  rw [← hname]
  rfl

theorem IsExact.written {v : Value} (h : v.IsExact) : v.Written := by
  induction h with
  | null => exact ⟨.null, rfl, rfl⟩
  | bool b => exact ⟨.bool b, rfl, rfl⟩
  | @int n hn =>
    have hc : canonicalInt n = .ok (toString n).toList := by
      unfold canonicalInt
      unfold IsSafe at hn
      rw [if_neg (by omega)]
    exact ⟨.int n, rfl, by simpa [Json.canonical, chars] using hc⟩
  | text s => exact ⟨.text s, rfl, rfl⟩
  | items hs _ ih =>
    obtain ⟨js, hjs, hcs⟩ := itemsToJson_written ih
    refine ⟨.list js, by simp [toJson_of_sequence hs, hjs], ?_⟩
    simp [Json.canonical, hcs, chars_of_sequence hs]
  | @mapping ms names hk hn _ ih =>
    obtain ⟨js, hjs, hkeys, hcs⟩ := membersToJson_written (isWritable_of_keys hk) ih
    have hnames : js.map Prod.fst = names := hkeys.trans (plainTexts_of_keys hk)
    -- distinct keys: every member keeps its place
    have hput : js.foldl (fun acc m => Json.put m.1 m.2 acc) [] = js := by
      have hindex : (Index.names js).Nodup := by rwa [Index.names, hnames]
      simpa [Index.ofEntries, Json.put_eq] using Index.ofEntries_of_nodup hindex
    refine ⟨.mapping js, by simp [toJson, hjs, hput], ?_⟩
    simp only [Json.canonical, hcs, ok_bind, chars, inOrder]
    rfl

theorem canonicalJson_exact {v : Value} (h : v.IsExact) : canonicalJson v = .ok (String.ofList v.chars) := by
  obtain ⟨j, hj, hc⟩ := h.written
  simp [canonicalJson, hj, hc]

end Value

/-! ## Reading lists -/

section
variable {α : Type} {f : α → List Char} {R : α → α → Prop} {as bs : List α} {close : Char} {x y : List Char}

theorem separated_cons (t : List Char) (ts : List (List Char)) :
    separated (t :: ts) = t ++ ts.flatMap fun u => ',' :: u := by
  induction ts generalizing t with
  | nil => simp [separated]
  | cons u ts ih =>
    rw [separated, ih, List.flatMap_cons, List.cons_append]
    simp

/-- The texts of the things in a list tell them, whatever follows, unless it is a digit. -/
def Told (f : α → List Char) (R : α → α → Prop) (as bs : List α) : Prop :=
  ∀ a ∈ as, ∀ b ∈ bs, ∀ x y, NoDigit x → NoDigit y → f a ++ x = f b ++ y → R a b ∧ x = y

theorem noDigit_following {ts : List (List Char)} (hc : close.isDigit = false) :
    NoDigit ((ts.flatMap fun u => ',' :: u) ++ close :: x) := by
  cases ts with
  | nil => simpa using hc
  | cons t ts => simp

/-- What stands behind the first item tells the others, up to the bracket that closes the list. -/
theorem following_inj (hc : close ≠ ',') (hd : close.isDigit = false) (ht : Told f R as bs)
    (h : ((as.map f).flatMap fun u => ',' :: u) ++ close :: x = ((bs.map f).flatMap fun u => ',' :: u) ++ close :: y) :
    List.Forall₂ R as bs ∧ x = y := by
  induction as generalizing bs with
  | nil =>
    cases bs with
    | nil => exact ⟨.nil, by simpa using h⟩
    | cons b bs =>
      simp only [List.map_nil, List.flatMap_nil, List.nil_append, List.map_cons, List.flatMap_cons, List.cons_append,
        List.cons.injEq] at h
      exact absurd h.1 hc
  | cons a as ih =>
    cases bs with
    | nil =>
      simp only [List.map_nil, List.flatMap_nil, List.nil_append, List.map_cons, List.flatMap_cons, List.cons_append,
        List.cons.injEq] at h
      exact absurd h.1.symm hc
    | cons b bs =>
      simp only [List.map_cons, List.flatMap_cons, List.cons_append, List.append_assoc, List.cons.injEq, true_and] at h
      obtain ⟨hab, hrest⟩ := ht a List.mem_cons_self b List.mem_cons_self _ _ (noDigit_following hd) (noDigit_following hd) h
      have htail : Told f R as bs := fun a ha b hb => ht a (List.mem_cons_of_mem _ ha) b (List.mem_cons_of_mem _ hb)
      obtain ⟨hall, hxy⟩ := ih htail hrest
      exact ⟨.cons hab hall, hxy⟩

theorem separated_inj (hc : close ≠ ',') (hd : close.isDigit = false) (ht : Told f R as bs)
    (hf : ∀ a z, a ∈ as ∨ a ∈ bs → (f a ++ z).head? ≠ some close)
    (h : separated (as.map f) ++ close :: x = separated (bs.map f) ++ close :: y) : List.Forall₂ R as bs ∧ x = y := by
  cases as with
  | nil =>
    cases bs with
    | nil => exact ⟨.nil, by simpa [separated] using h⟩
    | cons b bs =>
      rw [List.map_cons, separated_cons, List.append_assoc] at h
      have hb := hf b (((bs.map f).flatMap fun u => ',' :: u) ++ close :: y) (.inr List.mem_cons_self)
      rw [← h] at hb
      exact absurd rfl hb
  | cons a as =>
    rw [List.map_cons, separated_cons, List.append_assoc] at h
    cases bs with
    | nil =>
      have ha := hf a (((as.map f).flatMap fun u => ',' :: u) ++ close :: x) (.inl List.mem_cons_self)
      rw [h] at ha
      exact absurd rfl ha
    | cons b bs =>
      rw [List.map_cons, separated_cons, List.append_assoc] at h
      obtain ⟨hab, hrest⟩ := ht a List.mem_cons_self b List.mem_cons_self _ _ (noDigit_following hd) (noDigit_following hd) h
      have htail : Told f R as bs := fun a ha b hb => ht a (List.mem_cons_of_mem _ ha) b (List.mem_cons_of_mem _ hb)
      obtain ⟨hall, hxy⟩ := following_inj hc hd htail hrest
      exact ⟨.cons hab hall, hxy⟩

end

namespace Value

/-! ## Reading values -/

@[simp]
def lead : Value → Char
  | .scalar .null => 'n'
  | .scalar (.bool _) => 't'
  | .scalar (.text _) => doubleQuote
  | .list _ => '['
  | .tuple _ => '['
  | .mapping _ => '{'
  | _ => '0'

def leadOf (c : Char) : Char := if c = '-' ∨ c.isDigit = true then '0' else if c = 'f' then 't' else c

theorem lead_of_sequence {v : Value} {vs : List Value} (h : v.sequence? = some vs) : v.lead = '[' := by
  cases v with
  | list us | tuple us => rfl
  | scalar s | set us | mapping ms => cases h

theorem IsExact.chars_lead {v : Value} (h : v.IsExact) : ∃ c cs, v.chars = c :: cs ∧ leadOf c = v.lead := by
  cases h with
  | null => exact ⟨'n', _, rfl, by decide⟩
  | bool b =>
    cases b with
    | true => exact ⟨'t', _, rfl, by decide⟩
    | false => exact ⟨'f', _, rfl, by decide⟩
  | @int n hn =>
    obtain ⟨d, ds, hd, hdigit⟩ := decimalDigits_head n.natAbs
    by_cases hneg : n < 0
    · exact ⟨'-', d :: ds, by rw [chars, integer_toList, if_pos hneg, hd]; rfl, rfl⟩
    · exact ⟨d, ds, by rw [chars, integer_toList, if_neg hneg, hd]; rfl, by simp [leadOf, hdigit, lead]⟩
  | text s => exact ⟨doubleQuote, _, rfl, rfl⟩
  | items hs _ => exact ⟨'[', _, chars_of_sequence hs, by rw [lead_of_sequence hs]; decide⟩
  | mapping _ _ _ => exact ⟨'{', _, by rw [chars]; rfl, rfl⟩

theorem lead_eq {v w : Value} (hv : v.IsExact) (hw : w.IsExact) {x y : List Char} (h : v.chars ++ x = w.chars ++ y) :
    v.lead = w.lead := by
  obtain ⟨c, cs, hc, hcl⟩ := hv.chars_lead
  obtain ⟨d, ds, hd, hdl⟩ := hw.chars_lead
  rw [hc, hd, List.cons_append, List.cons_append, List.cons.injEq] at h
  rw [← hcl, ← hdl, h.1]

theorem IsExact.not_close {v : Value} (h : v.IsExact) {z : List Char} : (v.chars ++ z).head? ≠ some ']' := by
  obtain ⟨c, cs, hc, hl⟩ := h.chars_lead
  rw [hc, List.cons_append, List.head?_cons]
  intro hclose
  have hcl : v.lead = ']' := by
    rw [← hl, Option.some.inj hclose]
    rfl
  cases h with
  | items hs _ => exact absurd ((lead_of_sequence hs).symm.trans hcl) (by decide)
  | _ => simp [lead, doubleQuote] at hcl

def memberText (m : Scalar × Value) : List Char := memberChars (m.1.plainText, m.2.chars)

def sortedMembers (ms : Members) : Members := ms.mergeSort fun m n => canonicalKeyBefore m.1.plainText n.1.plainText

theorem chars_mapping (ms : Members) :
    chars (.mapping ms) = '\x7b' :: separated ((sortedMembers ms).map memberText) ++ ['\x7d'] := by
  have hsort : inOrder (labels ms) = (sortedMembers ms).map fun m => (m.1.plainText, m.2.chars) := by
    rw [inOrder, labels_eq, sortedMembers]
    symm
    apply List.map_mergeSort
    intros
    rfl
  rw [chars, hsort, List.map_map]
  rfl

theorem alike_of_sortedMembers {ms ns : Members} (h : List.Forall₂ AlikeMembers (sortedMembers ms) (sortedMembers ns)) :
    Alike (.mapping ms) (.mapping ns) := by
  have hms : ms.Perm (sortedMembers ms) := (List.mergeSort_perm ms _).symm
  have hns : (sortedMembers ns).Perm ns := List.mergeSort_perm ns _
  obtain ⟨others, hall, hperm⟩ := List.perm_comp_forall₂ hms h
  exact .of_members hall (hperm.trans hns)

section
variable {v w : Value} {vs ws : List Value} {ms ns : Members} {x y : List Char}

theorem items_alike (hv : v.sequence? = some vs) (hw : w.sequence? = some ws) (hvs : ∀ u ∈ vs, u.IsExact)
    (hws : ∀ u ∈ ws, u.IsExact) (ht : Told chars Alike vs ws) (h : v.chars ++ x = w.chars ++ y) : v.Alike w ∧ x = y := by
  rw [chars_of_sequence hv, chars_of_sequence hw] at h
  simp only [List.cons_append, List.append_assoc, List.nil_append, List.cons.injEq, true_and] at h
  have hclose (u : Value) (z : List Char) (hu : u ∈ vs ∨ u ∈ ws) : (u.chars ++ z).head? ≠ some ']' :=
    IsExact.not_close (hu.elim (hvs u) (hws u))
  obtain ⟨hall, hxy⟩ := separated_inj (by decide) (by decide) ht hclose h
  exact ⟨.of_items hv hw hall, hxy⟩

theorem mem_sortedMembers {m : Scalar × Value} (h : m ∈ sortedMembers ms) : m ∈ ms :=
  (List.mergeSort_perm ms _).mem_iff.mp h

theorem told_members (hms : ∀ m ∈ ms, ∃ name, m.1 = .text name) (hns : ∀ n ∈ ns, ∃ name, n.1 = .text name)
    (ht : Told (fun m => m.2.chars) (fun m n => m.2.Alike n.2) ms ns) :
    Told memberText AlikeMembers (sortedMembers ms) (sortedMembers ns) := by
  intro m hm n hn x y hx hy h
  have hm := mem_sortedMembers hm
  have hn := mem_sortedMembers hn
  obtain ⟨s, hs⟩ := hms m hm
  obtain ⟨t, ht'⟩ := hns n hn
  simp only [memberText, memberChars, List.append_assoc, List.cons_append] at h
  obtain ⟨hst, hrest⟩ := canonicalText_inj h
  obtain ⟨hvalues, hxy⟩ := ht m hm n hn x y hx hy (List.cons.inj hrest).2
  have hkeys : m.1 = n.1 := by
    rw [hs, ht'] at hst ⊢
    exact congrArg Scalar.text hst
  exact ⟨⟨hkeys, hvalues⟩, hxy⟩

theorem mappings_alike (ht : Told memberText AlikeMembers (sortedMembers ms) (sortedMembers ns))
    (h : (mapping ms).chars ++ x = (mapping ns).chars ++ y) : (mapping ms).Alike (mapping ns) ∧ x = y := by
  rw [chars_mapping, chars_mapping] at h
  simp only [List.cons_append, List.append_assoc, List.nil_append, List.cons.injEq, true_and] at h
  have hclose (m : Scalar × Value) (z : List Char) (_ : m ∈ sortedMembers ms ∨ m ∈ sortedMembers ns) :
      (memberText m ++ z).head? ≠ some '\x7d' := by
    simp [memberText, memberChars, canonicalText, doubleQuote]
  obtain ⟨hall, hxy⟩ := separated_inj (by decide) (by decide) ht hclose h
  exact ⟨alike_of_sortedMembers hall, hxy⟩

theorem named_of_keys {names : List String} (h : ms.map Prod.fst = names.map Scalar.text) :
    ∀ m ∈ ms, ∃ name, m.1 = .text name := by
  intro m hm
  obtain ⟨name, -, hname⟩ := List.mem_map.mp (h ▸ List.mem_map_of_mem hm)
  exact ⟨name, hname.symm⟩

theorem bool_inj {b c : Bool} (h : (scalar (.bool b)).chars ++ x = (scalar (.bool c)).chars ++ y) : b = c ∧ x = y := by
  cases b with
  | true =>
    cases c with
    | true => exact ⟨rfl, by simpa [chars] using h⟩
    | false => simp [chars] at h
  | false =>
    cases c with
    | true => simp [chars] at h
    | false => exact ⟨rfl, by simpa [chars] using h⟩

/-- Whatever follows an exact value, no values but those that are like it have its text. -/
theorem IsExact.alike (hv : v.IsExact) (hw : w.IsExact) (hx : NoDigit x) (hy : NoDigit y)
    (h : v.chars ++ x = w.chars ++ y) : v.Alike w ∧ x = y := by
  have hlead := lead_eq hv hw h
  induction hv generalizing w x y with
  | null =>
    cases hw with
    | null => exact ⟨.scalar _, by simpa [chars] using h⟩
    | items hs _ => exact absurd (hlead.trans (lead_of_sequence hs)) (by simp [lead])
    | _ => simp [lead, doubleQuote] at hlead
  | bool b =>
    cases hw with
    | bool c =>
      obtain ⟨hbc, hxy⟩ := bool_inj h
      exact ⟨hbc ▸ .scalar _, hxy⟩
    | items hs _ => exact absurd (hlead.trans (lead_of_sequence hs)) (by simp [lead])
    | _ => simp [lead, doubleQuote] at hlead
  | int hm =>
    cases hw with
    | int hn =>
      obtain ⟨hmn, hxy⟩ := integer_inj hx hy h
      exact ⟨hmn ▸ .scalar _, hxy⟩
    | items hs _ => exact absurd (hlead.trans (lead_of_sequence hs)) (by simp [lead])
    | _ => simp [lead, doubleQuote] at hlead
  | text s =>
    cases hw with
    | text t =>
      obtain ⟨hst, hxy⟩ := canonicalText_inj h
      exact ⟨hst ▸ .scalar _, hxy⟩
    | items hs _ => exact absurd (hlead.trans (lead_of_sequence hs)) (by simp [lead, doubleQuote])
    | _ => simp [lead, doubleQuote] at hlead
  | items hs hvs ih =>
    cases hw with
    | items ht hws =>
      refine items_alike hs ht hvs hws ?_ h
      intro a ha b hb x y hx hy hab
      exact ih a ha (hws b hb) hx hy hab (lead_eq (hvs a ha) (hws b hb) hab)
    | _ => exact absurd ((lead_of_sequence hs).symm.trans hlead) (by simp [lead, doubleQuote])
  | mapping hk _ hms ih =>
    cases hw with
    | mapping hl _ hns =>
      refine mappings_alike (told_members (named_of_keys hk) (named_of_keys hl) ?_) h
      intro m hm n hn x y hx hy hmn
      exact ih m hm (hns n hn) hx hy hmn (lead_eq (hms m hm) (hns n hn) hmn)
    | items hs _ => exact absurd (hlead.trans (lead_of_sequence hs)) (by simp [lead])
    | _ => simp [lead, doubleQuote] at hlead

end

/-! ## Writing what is alike -/

section
variable {v w : Value} {ms ns : Members}

theorem inOrder_of_perm {as bs : List Labelled} (hn : (as.map Prod.fst).Nodup) (h : as.Perm bs) :
    inOrder as = inOrder bs := by
  have hsorted (cs : List Labelled) : (inOrder cs).Pairwise fun a b => canonicalKeyBefore a.1 b.1 = true := by
    apply List.pairwise_mergeSort
    · intro a b c hab hbc
      exact canonicalKeyBefore_trans hab hbc
    · intro a b
      exact canonicalKeyBefore_total a.1 b.1
  have hperm : (inOrder as).Perm (inOrder bs) :=
    (List.mergeSort_perm as _).trans (h.trans (List.mergeSort_perm bs _).symm)
  refine List.Perm.eq_of_pairwise ?_ (hsorted as) (hsorted bs) hperm
  intro a b ha hb hab hba
  have ha : a ∈ as := (List.mergeSort_perm as _).mem_iff.mp ha
  have hb : b ∈ as := h.mem_iff.mpr ((List.mergeSort_perm bs _).mem_iff.mp hb)
  exact List.inj_on_of_nodup_map hn ha hb (canonicalKeyBefore_antisymm hab hba)

theorem labels_of_alike {others : Members} (hk : ms.map Prod.fst = others.map Prod.fst)
    (h : ∀ m n, (m, n) ∈ ms.zip others → m.2.chars = n.2.chars) : labels ms = labels others := by
  induction ms generalizing others with
  | nil =>
    cases others with
    | nil => rfl
    | cons n others => cases hk
  | cons m ms ih =>
    cases others with
    | nil => cases hk
    | cons n others =>
      rw [List.map_cons, List.map_cons, List.cons.injEq] at hk
      have hrest := ih hk.2 fun m n hmn => h m n (List.mem_cons_of_mem _ hmn)
      rw [labels, labels, hk.1, h m n List.mem_cons_self, hrest]

theorem Alike.chars_eq (h : v.Alike w) (hv : v.IsExact) (hw : w.IsExact) : v.chars = w.chars := by
  induction h with
  | scalar s => rfl
  | @items v w vs ws hs ht hlen _ ih =>
    have hvs : ∀ a ∈ vs, a.IsExact := hv.of_sequence hs
    have hws : ∀ b ∈ ws, b.IsExact := hw.of_sequence ht
    have hall : List.Forall₂ (fun a b => a.chars = b.chars) vs ws := by
      refine List.forall₂_iff_zip.mpr ⟨hlen, ?_⟩
      intro a b hab
      obtain ⟨ha, hb⟩ := List.of_mem_zip hab
      exact ih a b hab (hvs a ha) (hws b hb)
    have hchars : vs.map chars = ws.map chars := by
      rw [← List.forall₂_eq_eq_eq, List.forall₂_map_left_iff, List.forall₂_map_right_iff]
      exact hall
    rw [chars_of_sequence hs, chars_of_sequence ht, hchars]
  | @mapping ms ns others hk _ hp ih =>
    obtain ⟨names, hnames, hnodup, hms⟩ := hv.of_mapping
    obtain ⟨-, -, -, hns⟩ := hw.of_mapping
    have hlabels : labels ms = labels others := by
      refine labels_of_alike hk ?_
      intro m n hmn
      obtain ⟨hm, hn⟩ := List.of_mem_zip hmn
      exact ih m n hmn (hms m hm) (hns n (hp.mem_iff.mp hn))
    have hperm : (labels others).Perm (labels ns) := by
      rw [labels_eq, labels_eq]
      exact hp.map _
    have hkeys : ((labels others).map Prod.fst).Nodup := by
      rw [← hlabels, labels_eq, List.map_map]
      exact plainTexts_of_keys hnames ▸ hnodup
    rw [chars, chars, hlabels, inOrder_of_perm hkeys hperm]

end

end Value

/-- Exact values have a canonical text, and the same one exactly if they are equal up to the order of members. -/
theorem canonicalJson_eq_iff {v w : Value} (hv : v.IsExact) (hw : w.IsExact) :
    ∃ s t, canonicalJson v = .ok s ∧ canonicalJson w = .ok t ∧ (s = t ↔ v.Alike w) := by
  refine ⟨_, _, Value.canonicalJson_exact hv, Value.canonicalJson_exact hw, ?_⟩
  rw [String.ofList_inj]
  constructor
  · intro h
    exact (hv.alike hw noDigit_nil noDigit_nil (congrArg (· ++ []) h)).1
  · intro h
    exact h.chars_eq hv hw

/-- A mapping with a tuple in it. -/
def stock : Value := .mapping [(.text "sizes", .tuple [.int 1]), (.text "name", .text "a\n\"b\"")]

/-- The same members in another order, with a list in the place of the tuple. -/
def restocked : Value := .mapping [(.text "name", .text "a\n\"b\""), (.text "sizes", .list [.int 1])]

theorem canonicalJson_eq_iff_stock : stock.Alike restocked ∧
    ∃ s t, canonicalJson stock = .ok s ∧ canonicalJson restocked = .ok t ∧ (s = t ↔ stock.Alike restocked) := by
  have hone : (Value.int 1).IsExact := .int (by unfold IsSafe; decide)
  have htuple : (Value.tuple [.int 1]).IsExact := .items rfl (by simp [hone])
  have hlist : (Value.list [.int 1]).IsExact := .items rfl (by simp [hone])
  have hstock : stock.IsExact :=
    .mapping (rfl : _ = ["sizes", "name"].map Scalar.text) (by decide) (by simp [htuple, Value.IsExact.text])
  have hrestocked : restocked.IsExact :=
    .mapping (rfl : _ = ["name", "sizes"].map Scalar.text) (by decide) (by simp [hlist, Value.IsExact.text])
  have hsizes : (Value.tuple [.int 1]).Alike (.list [.int 1]) := .of_items rfl rfl (.cons (.scalar _) .nil)
  have hmembers : List.Forall₂ Value.AlikeMembers
      [(.text "sizes", .tuple [.int 1]), (.text "name", .text "a\n\"b\"")]
      [(.text "sizes", .list [.int 1]), (.text "name", .text "a\n\"b\"")] :=
    .cons ⟨rfl, hsizes⟩ (.cons ⟨rfl, .scalar _⟩ .nil)
  have halike : stock.Alike restocked := .of_members hmembers (.swap ..)
  exact ⟨halike, canonicalJson_eq_iff hstock hrestocked⟩

end Workflow
