import Workflow.Proofs.Check.Codes
import Workflow.Proofs.Reordered.Plans

/-!
# What settings decide

Settings decide how much a finding matters, and whether the events that start no step are mentioned. They never decide
what else is found in a manifest. So a manifest that has a plan keeps it when some findings come to matter less.
-/

namespace Workflow

/-- Settings with other judgements of the findings that one may choose to accept. -/
def Settings.judging (s : Settings) (unreachable deadEnd transition : Strictness) : Settings :=
  { s with unreachableStates := unreachable, deadEndStates := deadEnd, undeclaredTransitions := transition }

def Settings.mentioning (s : Settings) (unconsumed : Bool) : Settings := { s with reportUnconsumed := unconsumed }

/-- A judgement is kept or turned to a warning. -/
def Strictness.Eases (before after : Strictness) : Prop := after = before ∨ after = .warning

def judgedCodes : List String := ["unreachable_state", "dead_end_state", "undeclared_transition"]

structure Diagnostic.SameButSeverity (d d' : Diagnostic) : Prop where
  location : d'.location = d.location
  kind : d'.kind = d.kind
  code : d'.code = d.code
  message : d'.message = d.message
  severity : d'.severity = d.severity ∨ d.code ∈ judgedCodes

/-- What two searches come to that find the same. -/
inductive SameSearch : Except ForeignNumber (List Diagnostic) → Except ForeignNumber (List Diagnostic) → Prop
  | ended (n : ForeignNumber) : SameSearch (.error n) (.error n)
  | found {ds ds' : List Diagnostic} : List.Forall₂ Diagnostic.SameButSeverity ds ds' → SameSearch (.ok ds) (.ok ds')

/-- What two searches come to, the first of which also mentions events that start no step. -/
inductive Mentions : Except ForeignNumber (List Diagnostic) → Except ForeignNumber (List Diagnostic) → Prop
  | ended (n : ForeignNumber) : Mentions (.error n) (.error n)
  | found {ds us : List Diagnostic} : (∀ d ∈ ds, d.code ≠ unconsumedCode) → (∀ d ∈ us, d.code = unconsumedCode) →
      Mentions (.ok (ds ++ us)) (.ok ds)

def Plan.SameButWarnings (p p' : Plan) : Prop := p' = { p with warnings := p'.warnings }

section
variable {m : Manifest} {s : Settings} {custom : Option (List String)} {source : Option String}
  {unreachable deadEnd transition : Strictness} {found more : List Located} {p p' : Plan}

/-! ## Judgements -/

theorem severity_judging (f : Finding) :
    f.severity (s.judging unreachable deadEnd transition) = f.severity s ∨ f.code ∈ judgedCodes := by
  cases f with
  | deadEnd _ => exact .inr (by simp [Finding.code, judgedCodes])
  | unreachable _ _ => exact .inr (by simp [Finding.code, judgedCodes])
  | transition _ _ => exact .inr (by simp [Finding.code, judgedCodes])
  | _ => exact .inl rfl

theorem severity_eases (hu : s.unreachableStates.Eases unreachable) (hd : s.deadEndStates.Eases deadEnd)
    (ht : s.undeclaredTransitions.Eases transition) {f : Finding}
    (h : f.severity (s.judging unreachable deadEnd transition) = .error) : f.severity s = .error := by
  -- a judgement that is still an error was one before
  have heases {j j' : Strictness} (hj : j.Eases j') (he : j'.severity = .error) : j.severity = .error := by
    rcases hj with rfl | rfl
    · exact he
    · cases he
  cases f with
  | deadEnd _ => exact heases hd h
  | unreachable _ _ => exact heases hu h
  | transition _ _ => exact heases ht h
  | _ => exact h

theorem diagnostics_judging : SameSearch (Located.diagnostics s found)
    (Located.diagnostics (s.judging unreachable deadEnd transition) found) := by
  unfold Located.diagnostics
  cases found.findSome? fun l => l.finding.breakdown? with
  | some n => exact .ended n
  | none =>
    refine .found ?_
    rw [List.forall₂_map_left_iff, List.forall₂_map_right_iff, List.forall₂_same]
    intro l _
    exact ⟨rfl, rfl, rfl, rfl, severity_judging l.finding⟩

theorem Acceptable.eases (hu : s.unreachableStates.Eases unreachable) (hd : s.deadEndStates.Eases deadEnd)
    (ht : s.undeclaredTransitions.Eases transition) (h : Acceptable s found) :
    Acceptable (s.judging unreachable deadEnd transition) found := by
  intro l hl
  obtain ⟨hunbroken, hseverity⟩ := h l hl
  exact ⟨hunbroken, fun he => hseverity (severity_eases hu hd ht he)⟩

theorem severity_mentioning {b : Bool} (f : Finding) : f.severity (s.mentioning b) = f.severity s := by
  cases f <;> rfl

theorem acceptable_mentioning {b : Bool} : Acceptable (s.mentioning b) found ↔ Acceptable s found := by
  simp only [Acceptable, severity_mentioning]

/-! ## Plans -/

theorem plan_sameButWarnings {ds ds' : List Diagnostic} (h : m.plan ds = .ok p) (h' : m.plan ds' = .ok p') :
    p.SameButWarnings p' := by
  unfold Manifest.plan at h h'
  split at h
  · cases h
  · cases h
  · rename_i hf hp
    simp only [hf, hp] at h'
    cases h
    cases h'
    rfl

theorem sameButWarnings_of_compiles {s' : Settings} (h : m.Compiles s custom source p)
    (h' : m.Compiles s' custom source p') : p.SameButWarnings p' := by
  obtain ⟨c, hc, hp⟩ := h
  obtain ⟨c', hc', hp'⟩ := h'
  obtain ⟨_, ⟨⟩, -, -, hplan⟩ := plan_of_compile hc hp
  obtain ⟨_, ⟨⟩, -, -, hplan'⟩ := plan_of_compile hc' hp'
  exact plan_sameButWarnings hplan hplan'

theorem compiles_of_acceptable {s' : Settings}
    (ha : Acceptable s (m.checkReferences custom) → Acceptable s' (m.checkReferences custom))
    (h : m.Compiles s custom source p) : ∃ p', m.Compiles s' custom source p' ∧ p.SameButWarnings p' := by
  obtain ⟨hs, hplan⟩ := compiles_iff.mp ⟨p, h⟩
  obtain ⟨p', hp'⟩ := compiles_iff.mpr ⟨ha hs, hplan⟩
  exact ⟨p', hp', sameButWarnings_of_compiles h hp'⟩

/-! ## Events that start no step -/

theorem codes_diagnostics {cs : List String} (h : Codes cs found) :
    ∀ d ∈ found.map (Located.diagnostic s), d.code ∈ cs := by
  intro d hd
  obtain ⟨l, hl, rfl⟩ := List.mem_map.mp hd
  exact h l hl

theorem diagnose_mentioning : Mentions (m.diagnose (s.mentioning true) custom) (m.diagnose (s.mentioning false) custom) := by
  have hfound : m.findings (s.mentioning true) custom = m.checkReferences custom ++ m.checkUnconsumed := rfl
  have hless : m.findings (s.mentioning false) custom = m.checkReferences custom := List.append_nil _
  -- the events themselves never end the search
  have hunconsumed : Acceptable s m.checkUnconsumed := acceptable_unconsumed
  have hnone : (m.checkUnconsumed.findSome? fun l => l.finding.breakdown?) = none :=
    List.findSome?_eq_none_iff.mpr fun l hl => (hunconsumed l hl).1
  unfold Manifest.diagnose Located.diagnostics
  rw [hfound, hless, List.findSome?_append, hnone, Option.or_none]
  cases (m.checkReferences custom).findSome? fun l => l.finding.breakdown? with
  | some n => exact .ended n
  | none =>
    dsimp only
    rw [List.map_append]
    refine .found (fun d hd hc => ?_) fun d hd => ?_
    · have hcode : d.code ∈ referenceCodes := codes_diagnostics checkReferences_codes d hd
      exact unconsumedCode_not_mem (hc ▸ hcode)
    · exact List.mem_singleton.mp (codes_diagnostics checkUnconsumed_codes d hd)

variable (m s custom source) in
/-- **Settings weigh what is found, and decide nothing else.** Other judgements leave every finding in its place and change
the severity of those only that one may choose to accept; a plan is kept, but for its warnings, when errors become
warnings. Events that start no step are mentioned behind all else, or not at all, and no plan depends on it. -/
theorem diagnose_weighed :
    (∀ u d t, SameSearch (m.diagnose s custom) (m.diagnose (s.judging u d t) custom)) ∧
    (∀ u d t, s.unreachableStates.Eases u → s.deadEndStates.Eases d → s.undeclaredTransitions.Eases t →
      ∀ p, m.Compiles s custom source p → ∃ p', m.Compiles (s.judging u d t) custom source p' ∧ p.SameButWarnings p') ∧
    Mentions (m.diagnose (s.mentioning true) custom) (m.diagnose (s.mentioning false) custom) ∧
    ∀ b p, m.Compiles (s.mentioning b) custom source p →
      ∃ p', m.Compiles (s.mentioning !b) custom source p' ∧ p.SameButWarnings p' := by
  refine ⟨fun u d t => diagnostics_judging, fun u d t hu hd ht p hp => ?_, diagnose_mentioning, fun b p hp => ?_⟩
  · exact compiles_of_acceptable (Acceptable.eases hu hd ht) hp
  · exact compiles_of_acceptable (fun h => acceptable_mentioning.mpr (acceptable_mentioning.mp h)) hp

end

/-- Settings under which nothing is acceptable. -/
def strictest : Settings := { Settings.standard with unreachableStates := .error, undeclaredTransitions := .error }

theorem diagnose_weighed_workshop : ∃ m p, Manifest.load (workshop "owner = :actor" 1000) = .ok m ∧
    strictest.unreachableStates.Eases .warning ∧ strictest.deadEndStates.Eases .warning ∧
    strictest.undeclaredTransitions.Eases .error ∧ m.Compiles strictest none none p ∧
    (∃ p', m.Compiles (strictest.judging .warning .warning .error) none none p' ∧ p.SameButWarnings p') ∧
    m.Compiles (strictest.mentioning true) none none p ∧
    ∃ p', m.Compiles (strictest.mentioning false) none none p' ∧ p.SameButWarnings p' := by
  have hc : (Manifest.load (workshop "owner = :actor" 1000)).toOption.any (fun m =>
      (compile strictest none none (.ok m)).toOption.any fun c => c.plan.isSome) = true := by
    decide +kernel
  obtain ⟨m, hm, hc⟩ := any_toOption.mp hc
  obtain ⟨c, hc, hp⟩ := any_toOption.mp hc
  obtain ⟨p, hp⟩ := Option.isSome_iff_exists.mp hp
  have hcompiles : m.Compiles strictest none none p := ⟨c, hc, hp⟩
  obtain ⟨-, heases, -, hmention⟩ := diagnose_weighed m strictest none none
  exact ⟨m, p, hm, .inr rfl, .inr rfl, .inl rfl, hcompiles, heases _ _ _ (.inr rfl) (.inr rfl) (.inl rfl) p hcompiles,
    hcompiles, hmention true p hcompiles⟩

end Workflow
