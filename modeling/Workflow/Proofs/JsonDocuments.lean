import Workflow.Manifest
import Workflow.Proofs.Plan
import Workflow.Proofs.Yaml.Building

/-!
# Documents in JSON

A manifest that is given as a text of JSON is read as it is from the value itself, but for two kinds of values: a number
that is written without a point comes as its text, and a text with a key that is too long is malformed.
-/

namespace Workflow

open Yaml

def Scalar.isPointed : Scalar → Bool
  | float x => x.text.toList.contains '.'
  | _ => true

/-- Whether every number within a value that need not be whole is written with a point. -/
def Value.isPointed (v : Value) : Bool := v.all Scalar.isPointed fun _ => true

theorem Scalar.respelt_eq {s : Scalar} (h : s.isPointed = true) : s.respelt = s := by
  cases s with
  | float x =>
    have hpoint : x.text.toList.contains '.' = true := h
    rw [respelt, if_pos hpoint]
  | _ => rfl

theorem Value.IsBasicJson.respelt_eq {v : Value} (h : v.IsBasicJson) (hp : v.isPointed = true) : v.respelt = v := by
  induction h with
  | text _ => rw [Value.respelt, Scalar.respelt_eq rfl]
  | scalar _ _ => rw [Value.respelt, Scalar.respelt_eq hp]
  | @list vs _ ih =>
    rw [isPointed, all_list, List.all_eq_true] at hp
    have hsame : ∀ v ∈ vs, v.respelt = v := fun v hv => ih v hv (hp v hv)
    rw [Value.respelt, respeltItems_eq, List.map_congr_left hsame, List.map_id']
  | @mapping ms _ _ _ ih =>
    rw [isPointed, all_mapping, List.all_eq_true] at hp
    have hsame : ∀ m ∈ ms, (m.1, m.2.respelt) = m := by
      intro m hm
      have hm' : m.2.isPointed = true := hp m hm
      rw [ih m hm hm']
    rw [Value.respelt, respeltMembers_eq, List.map_congr_left hsame, List.map_id']

/-- A document in JSON is read as its value if its numbers have points and its keys fit. Numbers without points are read as
texts, and with a key that does not fit the text is malformed. -/
theorem loadText_json {d : Value} (h : d.IsBasicJson) :
    (d.keysFit = true → d.isPointed = true → Manifest.loadText (d.json .line) = .ok (Manifest.load d)) ∧
      (d.keysFit = true → Manifest.loadText (d.json .line) = .ok (Manifest.load d.respelt)) ∧
      (d.keysFit = false → Manifest.loadText (d.json .line) = .ok (.error [malformedText])) := by
  have hread := read_json h
  have hfits (hk : d.keysFit = true) : Manifest.loadText (d.json .line) = .ok (Manifest.load d.respelt) := by
    rw [hk, if_pos rfl] at hread
    rw [Manifest.loadText, hread]
  refine ⟨?_, hfits, ?_⟩
  · intro hk hp
    rw [hfits hk, h.respelt_eq hp]
  · intro hk
    rw [hk, if_neg Bool.false_ne_true] at hread
    rw [Manifest.loadText, hread]

open Plan (entry names)

/-- A document whose step stores an amount. -/
def stocked (amount : Value) : Value := .mapping [
  entry "product" (.mapping [
    entry "name" (.text "caf\u00e9"), entry "version" (.text "1.0"), entry "description" (.text "a\n\"b\"")]),
  entry "state_machine" (.mapping [
    entry "initial" (.text "open"),
    entry "states" (.list [.mapping [entry "name" (.text "open"), entry "terminal" (.bool true)]])]),
  entry "events" (.mapping [
    entry "namespace" (.text "stock"),
    entry "definitions" (.list [.mapping [entry "name" (.text "ordered"), entry "idempotency_key" .null]])]),
  entry "database" (.mapping [entry "tables" (.list [])]),
  entry "functions" (.list [.mapping [
    entry "name" (.text "take"),
    entry "pattern" (.text "simple"),
    entry "description" (.text ""),
    entry "trigger" (.mapping [entry "event" (.text "ordered")]),
    entry "persist" (.list [.mapping [
      entry "action" (.text "insert"),
      entry "table" (.text "goods"),
      entry "values" (.mapping [entry "amount" amount, entry "count" (.int (-3))])]])]])]

/-- One and a half. -/
def oneAndHalf : Binary64 := .finite false 0x18000000000000 (-52)

/-- Ten to the sixteenth. -/
def tenPower16 : Binary64 := .finite false 0x11c37937e08000 1

theorem stocked_isBasicJson {amount : Value} (h : amount.IsBasicJson) : (stocked amount).IsBasicJson := by
  have hscalars : (Value.bool true).IsBasicJson ∧ Value.null.IsBasicJson ∧ (Value.int (-3)).IsBasicJson :=
    ⟨.scalar trivial (by simp), .scalar trivial (by simp), .scalar trivial (by simp)⟩
  simp +decide [stocked, entry, Value.isBasicJson_mapping, Value.isBasicJson_list, Value.isBasicJson_text, h, hscalars]

theorem stocked_float {x : Binary64} (hf : x.isFinite = true) (hw : x.WellFormed) : (stocked (.float x)).IsBasicJson :=
  stocked_isBasicJson (.scalar ⟨hf, hw⟩ (by simp))

theorem tenPower16_isBasicJson : (stocked (.float tenPower16)).IsBasicJson :=
  stocked_float rfl ⟨by decide, by decide, by decide, by decide⟩

/-- A document with one key, of some letters. -/
def wide (n : Nat) : Value := .mapping [entry (String.ofList (List.replicate n 'a')) .null]

theorem wide_isBasicJson (n : Nat) : (wide n).IsBasicJson := by
  have hletters : IsBasic (List.replicate n 'a') := by
    intro c hc
    rw [List.eq_of_mem_replicate hc]
    decide
  have hnull : Value.null.IsBasicJson := .scalar trivial (by simp)
  simp [wide, entry, Value.isBasicJson_mapping, hletters, hnull]

theorem wide_keysFit {n : Nat} (h : longestKey < n + 2) : (wide n).keysFit = false := by
  have hletter : jsonChar 'a' = ['a'] := by decide
  have hkey : (Scalar.text (String.ofList (List.replicate n 'a'))).plainText = String.ofList (List.replicate n 'a') := rfl
  have hlen : (jsonText (String.ofList (List.replicate n 'a'))).toList.length = n + 2 := by
    rw [Lex.length_jsonText, String.toList_ofList]
    simp [hletter]
  have hlong : (Scalar.text (String.ofList (List.replicate n 'a'))).fitsKey = false := by
    rw [Scalar.fitsKey, hkey, hlen, decide_eq_false_iff_not]
    omega
  rw [wide, entry, Value.keysFit_mapping, List.all_cons, hlong]
  rfl

theorem stocked_respelt : (stocked (.float tenPower16)).respelt = stocked (.text "1e+16") := by
  have htext : (Scalar.float tenPower16).respelt = .text "1e+16" := by decide
  have hrest : (Scalar.bool true).respelt = .bool true ∧ Scalar.null.respelt = .null ∧ (Scalar.int (-3)).respelt = .int (-3) :=
    ⟨rfl, rfl, rfl⟩
  have hsame (s : String) : (Scalar.text s).respelt = .text s := rfl
  simp only [stocked, entry, Value.respelt, respeltItems, respeltMembers, htext, hrest, hsame]

theorem loadText_json_stocked :
    Manifest.loadText ((stocked (.float oneAndHalf)).json .line) = .ok (Manifest.load (stocked (.float oneAndHalf))) ∧
      Manifest.loadText ((stocked (.float tenPower16)).json .line) = .ok (Manifest.load (stocked (.text "1e+16"))) ∧
      Manifest.loadText ((wide 1100).json .line) = .ok (.error [malformedText]) := by
  have hhalf := stocked_float (x := oneAndHalf) rfl ⟨by decide, by decide, by decide, by decide⟩
  refine ⟨(loadText_json hhalf).1 (by decide) (by decide), ?_, ?_⟩
  · rw [← stocked_respelt]
    exact (loadText_json tenPower16_isBasicJson).2.1 (by decide)
  · exact (loadText_json (wide_isBasicJson 1100)).2.2 (wide_keysFit (by decide))

/-- A number without a point is stored as a text. -/
theorem loadText_json_power : (stocked (.float tenPower16)).IsBasicJson ∧
    Manifest.loadText ((stocked (.float tenPower16)).json .line) ≠ .ok (Manifest.load (stocked (.float tenPower16))) := by
  have hfit : (stocked (.float tenPower16)).keysFit = true := by decide
  have hne : Manifest.load (stocked (.text "1e+16")) ≠ Manifest.load (stocked (.float tenPower16)) := by decide
  refine ⟨tenPower16_isBasicJson, ?_⟩
  rw [Manifest.loadText, read_json tenPower16_isBasicJson, hfit, if_pos rfl, stocked_respelt]
  intro he
  exact hne (Except.ok.inj he)

end Workflow
