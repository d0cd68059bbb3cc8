import Workflow.Check.References

/-!
# The codes of a check

Each check reports findings under a few codes. The check for events that start no step has a code of its own, and no
other check uses it. So the diagnostics of a code are those of the few checks that report under it.
-/

namespace Workflow

attribute [local simp] Finding.code

def Codes (cs : List String) (found : List Located) : Prop := ∀ l ∈ found, l.finding.code ∈ cs

section
variable {α : Type} {cs ds : List String} {found more : List Located} {location : Location} {f : Finding}

theorem Codes.mono (h : Codes cs found) (hs : cs ⊆ ds) : Codes ds found := fun l hl => hs (h l hl)

@[simp] theorem codes_nil : Codes cs [] := nofun

@[simp] theorem codes_singleton : Codes cs [⟨location, f⟩] ↔ f.code ∈ cs := by simp [Codes]

@[simp] theorem codes_append : Codes cs (found ++ more) ↔ Codes cs found ∧ Codes cs more := List.forall_mem_append

theorem codes_flatMap {as : List α} {check : α → List Located} (h : ∀ a, Codes cs (check a)) :
    Codes cs (as.flatMap check) := by
  intro l hl
  obtain ⟨a, -, hl⟩ := List.mem_flatMap.mp hl
  exact h a l hl

theorem codes_map {as : List α} {g : α → Located} (h : ∀ a, (g a).finding.code ∈ cs) : Codes cs (as.map g) :=
  List.forall_mem_map.mpr fun a _ => h a

theorem codes_findIf {b : Bool} (hf : f.code ∈ cs) : Codes cs (findIf b location f) := by
  cases b with
  | false => exact codes_nil
  | true => exact codes_singleton.mpr hf

end

/-! ## Diagnostics of one code -/

/-- The diagnostics with a code. -/
def coded (code : String) (ds : List Diagnostic) : List Diagnostic := ds.filter fun d => d.code == code

def Located.coded (code : String) (found : List Located) : List Located := found.filter fun l => l.finding.code == code

/-- There is one diagnostic of a code for each name of a kind, and there are no others. -/
def Reports (ds : List Diagnostic) (code : String) (about : String → Diagnostic) (P : String → Prop) : Prop :=
  ∃ names : List String, names.Nodup ∧ (∀ n, n ∈ names ↔ P n) ∧ coded code ds = names.map about

section
variable {α : Type} {code : String} {cs : List String} {found more : List Located}

theorem coded_diagnostics (settings : Settings) (code : String) (found : List Located) :
    coded code (found.map (Located.diagnostic settings)) = (Located.coded code found).map (Located.diagnostic settings) :=
  List.filter_map

theorem coded_append : Located.coded code (found ++ more) = Located.coded code found ++ Located.coded code more :=
  List.filter_append ..

theorem coded_flatMap (as : List α) (check : α → List Located) :
    Located.coded code (as.flatMap check) = as.flatMap fun a => Located.coded code (check a) :=
  List.filter_flatMap

theorem coded_of_other (h : Codes cs found) (hc : code ∉ cs) : Located.coded code found = [] := by
  apply List.filter_eq_nil_iff.mpr
  intro l hl he
  exact hc (beq_iff_eq.mp he ▸ h l hl)

theorem coded_of_same (h : Codes [code] found) : Located.coded code found = found := by
  apply List.filter_eq_self.mpr
  intro l hl
  exact beq_iff_eq.mpr (List.mem_singleton.mp (h l hl))

theorem reports_of_coded {settings : Settings} {names : List String} {about : String → Diagnostic} {P : String → Prop}
    (at' : String → Located) (hn : names.Nodup) (hP : ∀ n, n ∈ names ↔ P n) (hat : ∀ n, (at' n).diagnostic settings = about n)
    (h : Located.coded code found = names.map at') : Reports (found.map (Located.diagnostic settings)) code about P := by
  refine ⟨names, hn, hP, ?_⟩
  rw [coded_diagnostics, h, List.map_map]
  exact List.map_congr_left fun n _ => hat n

end

section
variable {location path : Location} {t : Table} {tables : List Table} {custom : Option (List String)} {m : Manifest}

/-! ## Expressions and actions -/

theorem checkTemplate_codes {source : String} : Codes ["template_syntax"] (checkTemplate location source) := by
  unfold checkTemplate
  split <;> simp

theorem checkAssignments_codes {values : Assignments} :
    Codes ["unknown_column", "template_syntax"] (checkAssignments t path values) := by
  refine codes_flatMap fun (column, value) => codes_append.mpr ⟨codes_findIf (by simp), ?_⟩
  cases value with
  | text source => exact checkTemplate_codes.mono (by simp)
  | _ => exact codes_nil

theorem checkClause_codes {clause : String} :
    Codes ["invalid_predicate", "where_table_mismatch", "unknown_column"] (checkClause t path clause) := by
  unfold checkClause
  split
  · simp
  · refine codes_append.mpr ⟨codes_findIf ?_, codes_flatMap fun _ => codes_findIf ?_⟩ <;> simp

theorem checkPredicate_codes {expression : String} :
    Codes ["invalid_predicate", "predicate_table_mismatch", "unknown_column"]
      (Manifest.checkPredicate location expression t) := by
  unfold Manifest.checkPredicate
  split
  · simp
  · split
    · simp
    · exact codes_flatMap fun _ => codes_findIf (by simp)

def actionCodes : List String :=
  ["unknown_table", "unknown_column", "template_syntax", "update_without_where", "invalid_predicate",
    "where_table_mismatch", "unknown_custom_action"]

theorem checkOnTable_codes {name : String} {check : Table → List Located} (h : ∀ t, Codes actionCodes (check t)) :
    Codes actionCodes (checkOnTable tables path name check) := by
  unfold checkOnTable
  split
  · simp [actionCodes]
  · exact h _

theorem checkAction_codes {a : PersistAction} : Codes actionCodes (checkAction tables custom path a) := by
  have hvalues (t : Table) (path : Location) (values : Assignments) : Codes actionCodes (checkAssignments t path values) :=
    checkAssignments_codes.mono (by decide)
  cases a with
  | update u =>
    refine checkOnTable_codes fun t => codes_append.mpr ⟨hvalues t _ _, ?_⟩
    cases u.clause with
    | none => simp [actionCodes]
    | some clause => exact checkClause_codes.mono (by decide)
  | insert r => exact checkOnTable_codes fun t => hvalues t _ _
  | log r => exact checkOnTable_codes fun t => hvalues t _ _
  | custom c => exact codes_findIf (by simp [actionCodes])

theorem checkActions_codes {actions : List PersistAction} : Codes actionCodes (checkActions tables custom path actions) :=
  codes_flatMap fun _ => checkAction_codes

/-! ## Contracts and inputs -/

theorem checkState_codes {name : String} : Codes ["unknown_state"] (m.checkState location name) :=
  codes_findIf (by simp)

theorem checkStateOut_codes {c : Contract} : Codes ["undeclared_transition"] (m.checkStateOut path c) := by
  unfold Manifest.checkStateOut
  split
  · refine codes_flatMap fun name => ?_
    split
    · exact codes_findIf (by simp)
    · exact codes_nil
  · exact codes_nil

theorem checkDbSource_codes {d : DbSource} :
    Codes ["unknown_table", "unknown_column", "template_syntax"] (m.checkDbSource path d) := by
  unfold Manifest.checkDbSource
  refine codes_append.mpr ⟨?_, ?_⟩
  · split
    · simp
    · exact codes_flatMap fun _ => codes_findIf (by simp)
  · split
    · exact checkTemplate_codes.mono (by simp)
    · exact codes_nil

def contractCodes : List String :=
  ["unknown_state", "undeclared_transition", "unknown_table", "unknown_column", "template_syntax"]

theorem checkContract_codes {c : Contract} : Codes contractCodes (m.checkContract path c) := by
  have hstate (location : Location) (name : String) : Codes contractCodes (m.checkState location name) :=
    checkState_codes.mono (by decide)
  simp only [Manifest.checkContract, codes_append]
  refine ⟨⟨⟨⟨codes_flatMap fun _ => hstate _ _, hstate _ _⟩, checkStateOut_codes.mono (by decide)⟩, ?_⟩, ?_⟩
  · exact codes_flatMap fun _ => checkDbSource_codes.mono (by decide)
  · exact codes_flatMap fun _ => checkTemplate_codes.mono (by decide)

def inputCodes : List String :=
  ["unknown_payload_field", "unknown_table", "invalid_predicate", "predicate_table_mismatch", "unknown_column",
    "unknown_state", "template_syntax"]

theorem checkPayload_codes {s : Step} {triggers : List EventDefinition} :
    Codes inputCodes (Manifest.checkPayload path s triggers) := by
  unfold Manifest.checkPayload
  split
  · exact codes_flatMap fun _ => codes_findIf (by simp [inputCodes])
  · exact codes_nil

theorem checkExists_codes {e : String} : Codes inputCodes (m.checkExists location e) := by
  unfold Manifest.checkExists
  split
  · simp [inputCodes]
  · split
    · simp [inputCodes]
    · exact checkPredicate_codes.mono (by decide)

theorem checkStatePredicate_codes {e : String} : Codes inputCodes (m.checkStatePredicate location e) := by
  unfold Manifest.checkStatePredicate
  split
  · simp [inputCodes]
  · simp only [codes_append]
    refine ⟨⟨codes_findIf ?_, codes_map fun op => ?_⟩, codes_flatMap fun s => checkState_codes.mono (by decide)⟩
    · simp [inputCodes]
    · simp [inputCodes]

theorem checkInput_codes {s : Step} {triggers : List EventDefinition} :
    Codes inputCodes (m.checkInput path s triggers) := by
  simp only [Manifest.checkInput, codes_append]
  refine ⟨⟨⟨checkPayload_codes, ?_⟩, ?_⟩, codes_flatMap fun _ => checkTemplate_codes.mono (by decide)⟩
  · split
    · exact checkExists_codes
    · exact codes_nil
  · split
    · exact checkStatePredicate_codes
    · exact codes_nil

/-! ## Steps -/

theorem checkEvent_codes {name : String} : Codes ["unknown_event"] (m.checkEvent location name) :=
  codes_findIf (by simp)

theorem checkSites_codes {sites : List EventSite} : Codes ["unknown_event"] (m.checkSites path sites) :=
  codes_flatMap fun _ => checkEvent_codes

theorem checkSource_codes {s : Step} : Codes ["unknown_cron", "unknown_webhook"] (m.checkSource path s) := by
  cases s with
  | agent a => exact codes_nil
  | function f =>
    simp only [Manifest.checkSource]
    split
    · exact codes_findIf (by simp)
    · exact codes_findIf (by simp)
    · exact codes_nil

theorem checkTriggerKeys_codes {s : Step} {triggers : List EventDefinition} :
    Codes ["correlation_key_missing", "unknown_payload_field"] (Manifest.checkTriggerKeys path triggers s) := by
  cases s with
  | agent a => exact codes_nil
  | function f =>
    simp only [Manifest.checkTriggerKeys]
    split
    · exact codes_flatMap fun _ => codes_findIf (by simp)
    · exact codes_flatMap fun _ => codes_findIf (by simp)
    · exact codes_nil

def stepCodes : List String :=
  ["unknown_cron", "unknown_webhook", "unknown_event", "correlation_key_missing"] ++ contractCodes ++ inputCodes ++
    actionCodes

theorem checkStep_codes {s : Step} : Codes stepCodes (m.checkStep custom path s) := by
  simp only [Manifest.checkStep, codes_append]
  refine ⟨⟨⟨⟨⟨⟨checkSource_codes.mono (by decide), checkSites_codes.mono (by decide)⟩, checkSites_codes.mono (by decide)⟩,
    checkTriggerKeys_codes.mono (by decide)⟩, ?_⟩, checkInput_codes.mono (by decide)⟩, checkActions_codes.mono (by decide)⟩
  split
  · exact checkContract_codes.mono (by decide)
  · exact codes_nil

/-! ## Manifests -/

theorem checkUnique_codes {what : String} {seen : List String} {sites : List (Location × String)} :
    Codes ["duplicate_" ++ what] (checkUnique what seen sites) := by
  induction sites generalizing seen with
  | nil => exact codes_nil
  | cons site sites ih => exact codes_append.mpr ⟨codes_findIf (by simp), ih⟩

def duplicateCodes : List String :=
  ["duplicate_state", "duplicate_event", "duplicate_step", "duplicate_table", "duplicate_actor", "duplicate_webhook",
    "duplicate_cron", "duplicate_column"]

theorem checkDuplicates_codes : Codes duplicateCodes m.checkDuplicates := by
  simp only [Manifest.checkDuplicates, codes_append]
  refine ⟨⟨⟨⟨⟨⟨⟨?_, ?_⟩, ?_⟩, ?_⟩, ?_⟩, ?_⟩, ?_⟩, codes_flatMap fun _ => ?_⟩
  all_goals exact checkUnique_codes.mono (by decide)

theorem checkStates_codes : Codes ["unknown_state", "dead_end_state", "unreachable_state"] m.checkStates := by
  simp only [Manifest.checkStates, Manifest.checkTransitions, codes_append]
  refine ⟨⟨⟨codes_findIf ?_, codes_flatMap fun _ => codes_flatMap fun _ => codes_findIf ?_⟩, codes_map fun _ => ?_⟩,
    codes_map fun _ => ?_⟩
  all_goals simp

theorem checkEvents_codes : Codes ["unknown_payload_field"] m.checkEvents := by
  refine codes_flatMap fun (i, e) => ?_
  dsimp only
  split
  · exact codes_findIf (by simp)
  · exact codes_nil

theorem checkWebhooksAndCrons_codes :
    Codes ["unknown_event", "unknown_function", "function_pattern_mismatch"] m.checkWebhooksAndCrons := by
  refine codes_append.mpr ⟨codes_flatMap fun (i, w) => ?_, codes_flatMap fun _ => codes_findIf (by simp)⟩
  simp only [Manifest.checkWebhook]
  split
  · exact checkEvent_codes.mono (by simp)
  · split
    · simp
    · exact codes_findIf (by simp)

def policyCodes : List String :=
  ["unknown_actor", "condition_missing_actor", "invalid_predicate", "predicate_table_mismatch", "unknown_column"]

theorem checkPolicies_codes : Codes policyCodes m.checkPolicies := by
  refine codes_flatMap fun _ => codes_flatMap fun _ => ?_
  simp only [Manifest.checkPolicy, codes_append]
  refine ⟨⟨codes_findIf ?_, codes_findIf ?_⟩, checkPredicate_codes.mono (by decide)⟩
  · simp [policyCodes]
  · simp [policyCodes]

def referenceCodes : List String :=
  ["dead_end_state", "unreachable_state", "unknown_function", "function_pattern_mismatch"] ++ duplicateCodes ++
    policyCodes ++ stepCodes

theorem checkSteps_codes : Codes stepCodes (m.steps.flatMap fun s => m.checkStep custom s.1 s.2) :=
  codes_flatMap fun _ => checkStep_codes

theorem checkReferences_eq : m.checkReferences custom =
    m.checkDuplicates ++ m.checkStates ++ m.checkEvents ++ m.checkWebhooksAndCrons ++ m.checkPolicies ++
      m.steps.flatMap fun s => m.checkStep custom s.1 s.2 := rfl

theorem checkReferences_codes : Codes referenceCodes (m.checkReferences custom) := by
  simp only [Manifest.checkReferences, codes_append]
  exact ⟨⟨⟨⟨⟨checkDuplicates_codes.mono (by decide), checkStates_codes.mono (by decide)⟩, checkEvents_codes.mono (by decide)⟩,
    checkWebhooksAndCrons_codes.mono (by decide)⟩, checkPolicies_codes.mono (by decide)⟩,
    codes_flatMap fun _ => checkStep_codes.mono (by decide)⟩

def unconsumedCode : String := "unconsumed_event"

theorem checkUnconsumed_codes : Codes [unconsumedCode] m.checkUnconsumed :=
  codes_map fun _ => by simp [unconsumedCode]

/-- Events without a consumer are reported under their own code, or not at all. -/
theorem unconsumed_codes (settings : Settings) :
    Codes [unconsumedCode] (if settings.reportUnconsumed then m.checkUnconsumed else []) := by
  split
  · exact checkUnconsumed_codes
  · exact codes_nil

theorem unconsumedCode_not_mem : unconsumedCode ∉ referenceCodes := by decide

end

end Workflow
