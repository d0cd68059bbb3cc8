import Mathlib.Data.List.Chain
import Workflow.Proofs.Check.Codes
import Workflow.Proofs.Reordered.Plans
import Workflow.Proofs.StateGraph

/-!
# Paths through the states of a machine

A path starts in the initial state and follows the transitions that are declared. A state is reported as unreachable if
and only if no path leads to it, and as a dead end if and only if it is not terminal and leads to no declared state. So
where dead ends are refused, every path stays among the declared states, and it ends only in a terminal state.
-/

namespace Workflow

namespace StateMachine

def Moves (m : StateMachine) (s t : String) : Prop := ∃ d ∈ m.states, d.name = s ∧ t ∈ d.transitions

/-- The states of a path, in the order in which it comes to them. -/
structure Path (m : StateMachine) (p : List String) : Prop where
  start : p.head? = some m.initial
  moves : p.IsChain m.Moves

def Reaches (m : StateMachine) (s : String) : Prop := ∃ p, m.Path p ∧ p.getLast? = some s

def IsTerminal (m : StateMachine) (s : String) : Prop := ∃ d ∈ m.states, d.name = s ∧ d.terminal = true

/-- A state leads to a declared state. -/
def Continues (m : StateMachine) (s : String) : Prop := ∃ t ∈ m.names, m.Moves s t

instance (m : StateMachine) (s t : String) : Decidable (m.Moves s t) :=
  inferInstanceAs (Decidable (∃ d ∈ m.states, d.name = s ∧ t ∈ d.transitions))

section
variable {m : StateMachine} {s t : String}

theorem Moves.declared (h : m.Moves s t) : s ∈ m.names := by
  obtain ⟨d, hd, rfl, -⟩ := h
  exact List.mem_map_of_mem hd

theorem leads_iff : m.graph.Leads s t ↔ m.Moves s t ∧ t ∈ m.names := by
  unfold StateGraph.Leads Moves
  rw [mem_graph_transitions, mem_edges]
  constructor
  · rintro ⟨d, hd, hs, ht, hn⟩
    exact ⟨⟨d, hd, hs.symm, ht⟩, hn⟩
  · rintro ⟨⟨d, hd, hs, ht⟩, hn⟩
    exact ⟨d, hd, hs.symm, ht, hn⟩

theorem closed_graph (m : StateMachine) : m.graph.Closed := by
  intro e he
  exact mem_graph_states.mpr (leads_iff.mp he).2

theorem reaches_iff : m.Reaches s ↔ Relation.ReflTransGen m.Moves m.initial s := by
  constructor
  · rintro ⟨p, hp, hlast⟩
    cases p with
    | nil => cases hlast
    | cons i p =>
      obtain rfl : i = m.initial := Option.some.inj hp.start
      apply List.relationReflTransGen_of_exists_isChain_cons p hp.moves
      exact Option.some.inj ((List.getLast?_eq_some_getLast _).symm.trans hlast)
  · intro h
    obtain ⟨p, hp, hlast⟩ := List.exists_isChain_cons_of_relationReflTransGen h
    exact ⟨m.initial :: p, ⟨rfl, hp⟩, (List.getLast?_eq_some_getLast _).trans (congrArg some hlast)⟩

theorem leads_of_moves (h : Relation.ReflTransGen m.Moves s t) (ht : t ∈ m.names) :
    Relation.ReflTransGen m.graph.Leads s t := by
  induction h with
  | refl => exact .refl
  | tail _ hmove ih => exact (ih hmove.declared).tail (leads_iff.mpr ⟨hmove, ht⟩)

/-! ## Exactness -/

theorem mem_unreachable (hi : m.initial ∈ m.names) : s ∈ m.graph.unreachable ↔ s ∈ m.names ∧ ¬ m.Reaches s := by
  have hstate : m.initial ∈ m.graph.states := mem_graph_states.mpr hi
  have hlist : m.graph.unreachable = m.graph.states.filter fun s => !(m.graph.reachableFrom m.initial).contains s := by
    unfold StateGraph.unreachable
    rw [graph_initial]
    exact if_pos (by simpa [StateGraph.hasState] using hstate)
  have hreached (hs : s ∈ m.names) : s ∈ m.graph.reachableFrom m.initial ↔ m.Reaches s := by
    rw [StateGraph.mem_reachableFrom (closed_graph m) hstate, reaches_iff]
    constructor
    · exact Relation.ReflTransGen.mono (fun _ _ hl => (leads_iff.mp hl).1) _ _
    · exact fun h => leads_of_moves h hs
  rw [hlist, List.mem_filter, mem_graph_states]
  apply and_congr_right
  intro hs
  simp [hreached hs]

theorem nodup_unreachable (m : StateMachine) : m.graph.unreachable.Nodup := by
  unfold StateGraph.unreachable
  rw [graph_initial]
  dsimp only
  split
  · exact nodup_graph_states.filter _
  · exact List.nodup_nil

theorem mem_deadEnds : s ∈ m.graph.deadEnds ↔ s ∈ m.names ∧ ¬ m.IsTerminal s ∧ ¬ m.Continues s := by
  have hterminal : s ∈ m.graph.terminal ↔ m.IsTerminal s := by
    rw [mem_graph_terminal]
    apply exists_congr
    intro d
    apply and_congr_right
    intro _
    rw [and_comm, eq_comm]
  have htargets : m.graph.targets s = [] ↔ ¬ m.Continues s := by
    simp only [List.eq_nil_iff_forall_not_mem, StateGraph.mem_targets, Continues, not_exists, not_and]
    constructor
    · intro h t hn hmove
      exact h t (leads_iff.mpr ⟨hmove, hn⟩)
    · intro h t hl
      exact h t (leads_iff.mp hl).2 (leads_iff.mp hl).1
  unfold StateGraph.deadEnds
  rw [List.mem_filter, mem_graph_states]
  simp [hterminal, htargets]

theorem nodup_deadEnds (m : StateMachine) : m.graph.deadEnds.Nodup := nodup_graph_states.filter _

/-- A path stays among the declared states where every transition leads to one. -/
theorem Path.declared {p : List String} (hp : m.Path p) (hi : m.initial ∈ m.names)
    (ht : ∀ d ∈ m.states, ∀ t ∈ d.transitions, t ∈ m.names) : ∀ s ∈ p, s ∈ m.names := by
  apply hp.moves.induction (· ∈ m.names) p
  · rintro s t ⟨d, hd, -, hmove⟩ -
    exact ht d hd t hmove
  · intro hne
    have hhead : p.head hne = m.initial := Option.some.inj ((List.head?_eq_some_head hne).symm.trans hp.start)
    exact hhead ▸ hi

end

end StateMachine

/-! ## Reports -/

namespace Manifest

def unreachableDiagnostic (m : Manifest) (settings : Settings) (s : String) : Diagnostic where
  location := declarationPath statesPath m.stateMachine.names s
  kind := .crossReference
  code := "unreachable_state"
  message := s!"state '{s}' is not reachable from '{m.stateMachine.initial}'"
  severity := settings.unreachableStates.severity

def deadEndDiagnostic (m : Manifest) (settings : Settings) (s : String) : Diagnostic where
  location := declarationPath statesPath m.stateMachine.names s
  kind := .crossReference
  code := "dead_end_state"
  message := s!"state '{s}' is not terminal but has no transitions"
  severity := settings.deadEndStates.severity

def unreachableAt (m : Manifest) (s : String) : Located :=
  ⟨declarationPath statesPath m.stateMachine.names s, .unreachable s m.stateMachine.initial⟩

def deadEndAt (m : Manifest) (s : String) : Located := ⟨declarationPath statesPath m.stateMachine.names s, .deadEnd s⟩

/-- Diagnostics tell exactly which states are not reached, and which of them are dead ends. -/
structure StatesReported (m : Manifest) (settings : Settings) (ds : List Diagnostic) : Prop where
  unreachable : m.stateMachine.initial ∈ m.stateMachine.names →
    Reports ds "unreachable_state" (m.unreachableDiagnostic settings) fun s =>
      s ∈ m.stateMachine.names ∧ ¬ m.stateMachine.Reaches s
  deadEnds : Reports ds "dead_end_state" (m.deadEndDiagnostic settings) fun s =>
    s ∈ m.stateMachine.names ∧ ¬ m.stateMachine.IsTerminal s ∧ ¬ m.stateMachine.Continues s

section
variable {m : Manifest} {settings : Settings} {custom : Option (List String)} {source : Option String} {code : String}
  {ds : List Diagnostic} {p : Plan}

theorem coded_checkStates (hc : code ≠ "unknown_state") : Located.coded code m.checkStates =
    Located.coded code (m.stateMachine.graph.deadEnds.map m.deadEndAt) ++
    Located.coded code (m.stateMachine.graph.unreachable.map m.unreachableAt) := by
  have hother : code ∉ ["unknown_state"] := List.mem_singleton.not.mpr hc
  have hinitial : Codes ["unknown_state"] (findIf (!m.hasState m.stateMachine.initial)
      [.key "state_machine", .key "initial"] (.initialState m.stateMachine.initial)) := codes_findIf (by simp [Finding.code])
  have htransitions : Codes ["unknown_state"] m.checkTransitions :=
    codes_flatMap fun _ => codes_flatMap fun _ => codes_findIf (by simp [Finding.code])
  unfold checkStates
  simp only [coded_append, coded_of_other hinitial hother, coded_of_other htransitions hother, List.nil_append]
  rfl

def otherCodes : List String :=
  ["unknown_function", "function_pattern_mismatch"] ++ duplicateCodes ++ policyCodes ++ stepCodes ++ [unconsumedCode]

theorem coded_findings_states (hc : code ∉ otherCodes) :
    Located.coded code (m.findings settings custom) = Located.coded code m.checkStates := by
  have hother {found : List Located} {cs : List String} (h : Codes cs found) (hs : cs ⊆ otherCodes) :
      Located.coded code found = [] := coded_of_other h fun hm => hc (hs hm)
  unfold findings
  simp only [checkReferences_eq, coded_append, hother checkDuplicates_codes (by decide), hother checkEvents_codes (by decide),
    hother checkWebhooksAndCrons_codes (by decide), hother checkPolicies_codes (by decide), hother checkSteps_codes (by decide),
    hother (unconsumed_codes settings) (by decide), List.nil_append, List.append_nil]

theorem statesReported {found : List Located} (h : ∀ code, code ∉ otherCodes → Located.coded code found =
    Located.coded code m.checkStates) : m.StatesReported settings (found.map (Located.diagnostic settings)) := by
  have hdead : Codes ["dead_end_state"] (m.stateMachine.graph.deadEnds.map m.deadEndAt) :=
    codes_map fun _ => by simp [deadEndAt, Finding.code]
  have hunreachable : Codes ["unreachable_state"] (m.stateMachine.graph.unreachable.map m.unreachableAt) :=
    codes_map fun _ => by simp [unreachableAt, Finding.code]
  constructor
  · intro hi
    apply reports_of_coded m.unreachableAt (StateMachine.nodup_unreachable _) (fun s => StateMachine.mem_unreachable hi) fun _ => rfl
    rw [h _ (by decide), coded_checkStates (by decide), coded_of_other hdead (by decide), coded_of_same hunreachable,
      List.nil_append]
  · apply reports_of_coded m.deadEndAt (StateMachine.nodup_deadEnds _) (fun s => StateMachine.mem_deadEnds) fun _ => rfl
    rw [h _ (by decide), coded_checkStates (by decide), coded_of_same hdead, coded_of_other hunreachable (by decide),
      List.append_nil]

theorem diagnose_statesReported (h : m.diagnose settings custom = .ok ds) : m.StatesReported settings ds := by
  obtain ⟨-, rfl⟩ := Located.diagnostics_eq_ok.mp h
  exact statesReported fun _ hc => coded_findings_states hc

/-! ## Accepted machines -/

theorem no_deadEnd (hs : settings.deadEndStates = .error) (hr : m.StatesReported settings ds) (he : errorsOf ds = [])
    {s : String} (hn : s ∈ m.stateMachine.names) : m.stateMachine.IsTerminal s ∨ m.stateMachine.Continues s := by
  by_contra hdead
  obtain ⟨names, -, hnames, hcoded⟩ := hr.deadEnds
  have hmem : s ∈ names := (hnames s).mpr ⟨hn, not_or.mp hdead⟩
  have hd : m.deadEndDiagnostic settings s ∈ coded "dead_end_state" ds := hcoded ▸ List.mem_map_of_mem hmem
  have herror := List.filter_eq_nil_iff.mp he _ (List.mem_of_mem_filter hd)
  simp [Diagnostic.isError, deadEndDiagnostic, hs, Strictness.severity] at herror

variable (m settings custom source) in
/-- **The states of a machine are judged by its paths.** Exactly the declared states that no path leads to are reported as
unreachable, and exactly those that are not terminal and lead to no declared state as dead ends, each state once. Where
dead ends are refused, each state of each path of an accepted manifest is declared, and it is terminal or can be left for
a declared state. -/
theorem states_judged_by_paths : m.StatesReported settings (m.checkStates.map (Located.diagnostic settings)) ∧
    (∀ ds, m.diagnose settings custom = .ok ds → m.StatesReported settings ds) ∧
    (settings.deadEndStates = .error → ∀ p, m.Compiles settings custom source p → ∀ path, m.stateMachine.Path path →
      ∀ s ∈ path, s ∈ m.stateMachine.names ∧ (m.stateMachine.IsTerminal s ∨ m.stateMachine.Continues s)) := by
  refine ⟨statesReported fun _ _ => rfl, fun ds => diagnose_statesReported, ?_⟩
  intro hs p hp path hpath s hmem
  obtain ⟨c, hc, hp⟩ := hp
  obtain ⟨_, ⟨⟩, hd, he, -⟩ := plan_of_compile hc hp
  have hclosed := (sound_of_diagnose hd he).closed
  have hn := hpath.declared hclosed.initial hclosed.transitions s hmem
  exact ⟨hn, no_deadEnd hs (diagnose_statesReported hd) he hn⟩

end

end Manifest

open Plan

/-- A document with a state that is left and come back to, and one that nothing leads to. -/
def reopened : Value := .mapping [
  entry "product" (.mapping [
    entry "name" (.text "reopened"), entry "description" (.text ""), entry "version" (.text "1")]),
  entry "state_machine" (.mapping [
    entry "initial" (.text "open"),
    entry "states" (.list [
      .mapping [entry "name" (.text "open"), entry "transitions_to" (names ["taken"])],
      .mapping [entry "name" (.text "taken"), entry "transitions_to" (names ["open", "done"])],
      .mapping [entry "name" (.text "lost"), entry "transitions_to" (names ["done"])],
      .mapping [entry "name" (.text "done"), entry "terminal" (.bool true)]])]),
  entry "events" (.mapping [entry "namespace" (.text "reopened")])]

theorem states_judged_by_paths_reopened : ∃ m ds p, Manifest.load reopened = .ok m ∧
    m.stateMachine.initial ∈ m.stateMachine.names ∧ m.diagnose .standard none = .ok ds ∧
    Settings.standard.deadEndStates = .error ∧ m.Compiles .standard none none p ∧
    m.stateMachine.Path ["open", "taken", "open", "taken"] ∧ m.StatesReported .standard ds ∧
    coded "unreachable_state" ds = [m.unreachableDiagnostic .standard "lost"] ∧
    "taken" ∈ m.stateMachine.names ∧ (m.stateMachine.IsTerminal "taken" ∨ m.stateMachine.Continues "taken") := by
  have hc : (Manifest.load reopened).toOption.any (fun m =>
      decide (m.stateMachine.initial ∈ m.stateMachine.names) &&
      (m.diagnose .standard none).toOption.any (fun ds =>
        decide (coded "unreachable_state" ds = [m.unreachableDiagnostic .standard "lost"])) &&
      (compile .standard none none (.ok m)).toOption.any (fun c => c.plan.isSome) &&
      decide (["open", "taken", "open", "taken"].head? = some m.stateMachine.initial) &&
      decide (["open", "taken", "open", "taken"].IsChain m.stateMachine.Moves)) = true := by
    decide
  obtain ⟨m, hm, hc⟩ := any_toOption.mp hc
  simp only [Bool.and_eq_true, decide_eq_true_eq] at hc
  obtain ⟨⟨⟨⟨hi, hd⟩, hc⟩, hstart⟩, hmoves⟩ := hc
  obtain ⟨ds, hd, hlost⟩ := any_toOption.mp hd
  obtain ⟨c, hc, hp⟩ := any_toOption.mp hc
  obtain ⟨p, hp⟩ := Option.isSome_iff_exists.mp hp
  have hpath : m.stateMachine.Path ["open", "taken", "open", "taken"] := ⟨hstart, hmoves⟩
  obtain ⟨-, hreported, hpaths⟩ := Manifest.states_judged_by_paths m .standard none none
  exact ⟨m, ds, p, hm, hi, hd, rfl, ⟨c, hc, hp⟩, hpath, hreported ds hd, of_decide_eq_true hlost,
    hpaths rfl p ⟨c, hc, hp⟩ _ hpath "taken" (by simp)⟩

end Workflow
