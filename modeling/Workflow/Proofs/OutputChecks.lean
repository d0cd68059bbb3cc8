import Workflow.Proofs.Endings
import Workflow.Proofs.Except
import Workflow.Proofs.Template.DottedPaths

/-!
# What is wrong with an output

An output is looked at as it is, and then its artifacts are looked for. If fields or artifacts are missing, the rejection
names all of them.
-/

namespace Workflow

def lacks (output : Members) (field : String) : Bool := hasPath output field matches .ok false

namespace Step

def requiredArtifacts (s : Step) : List ArtifactSpec :=
  match s.contract? with
  | some c => if s.rules.output.requireArtifacts then c.contextOut.artifacts.filter ArtifactSpec.required else []
  | none => []

def schema? (schemas : Index OutputCheck) (s : Step) : Option (String × OutputCheck) :=
  s.contract?.bind fun c => (schemas.get? c.outputSchema).map fun check => (c.outputSchema, check)

section
variable (s : Step) (schemas : Index OutputCheck) (output : Members)

def missing : List String := s.rules.output.requiredFields.filter (lacks output)

def Succeeds : Prop := s.rules.output.requireSuccess = true → Members.get? output "success" = some (.bool true)

def HasFields : Prop := ∀ f ∈ s.rules.output.requiredFields, hasPath output f = .ok true

def Fits : Prop := ∀ name check, s.schema? schemas = some (name, check) → check output = []

/-- What is wrong with an output by itself. -/
inductive Objects : OutputFault → Prop
  | unsuccessful {error : Option String} : ¬ s.Succeeds output → reportedError output = .ok error →
      Objects (.unsuccessful error)
  | fields : s.Succeeds output → (∀ f ∈ s.rules.output.requiredFields, ∃ found, hasPath output f = .ok found) →
      s.missing output ≠ [] → Objects (.fields (s.missing output))
  | schema {name : String} {check : OutputCheck} : s.Succeeds output → s.HasFields output →
      s.schema? schemas = some (name, check) → check output ≠ [] →
      Objects (.schema name ((check output).map OutputProblem.text))

def inspect : Except Stop Unit :=
  if s.rules.output.requireSuccess && !reportsSuccess output then
    match reportedError output with
    | .error b => .error (.failed (.breakdown b))
    | .ok error => .error (.rejected (.output (.unsuccessful error)))
  else
    match missingFields output s.rules.output.requiredFields with
    | .error b => .error (.failed (.breakdown b))
    | .ok (n :: ns) => .error (.rejected (.output (.fields (n :: ns))))
    | .ok [] =>
      match s.schema? schemas with
      | none => .ok ()
      | some (name, check) =>
        match check output with
        | [] => .ok ()
        | p :: ps => .error (.rejected (.output (.schema name ((p :: ps).map OutputProblem.text))))

end

end Step

/-! ## The output itself -/

section
variable {s : Step} {schemas : Index OutputCheck} {output : Members}

theorem reportsSuccess_iff : reportsSuccess output = true ↔ Members.get? output "success" = some (.bool true) := by
  unfold reportsSuccess
  split
  · rename_i b hb
    cases b <;> simp [hb]
  · rename_i hne
    exact iff_of_false nofun fun h => hne true h

theorem succeeds_iff : s.Succeeds output ↔ ¬ (s.rules.output.requireSuccess && !reportsSuccess output) = true := by
  rw [Step.Succeeds, ← reportsSuccess_iff]
  cases s.rules.output.requireSuccess <;> cases reportsSuccess output <;> simp

theorem not_succeeds_iff : ¬ s.Succeeds output ↔ (s.rules.output.requireSuccess && !reportsSuccess output) = true := by
  rw [succeeds_iff, not_not]

theorem missingFields_iff {names ns : List String} : missingFields output names = .ok ns ↔
    (∀ f ∈ names, ∃ found, hasPath output f = .ok found) ∧ names.filter (lacks output) = ns := by
  induction names generalizing ns with
  | nil => simp [missingFields]
  | cons f names ih =>
    rw [missingFields, bind_eq_ok, List.forall_mem_cons]
    constructor
    · rintro ⟨found, hf, h⟩
      obtain ⟨more, hmore, h⟩ := bind_eq_ok.mp h
      obtain ⟨hnames, rfl⟩ := ih.mp hmore
      refine ⟨⟨⟨found, hf⟩, hnames⟩, ?_⟩
      cases found <;> cases h <;> simp [lacks, hf]
    · rintro ⟨⟨⟨found, hf⟩, hnames⟩, rfl⟩
      refine ⟨found, hf, bind_eq_ok.mpr ⟨_, ih.mpr ⟨hnames, rfl⟩, ?_⟩⟩
      cases found <;> simp [lacks, hf]

theorem missingFields_eq_error {names : List String} {b : Breakdown} (h : missingFields output names = .error b) :
    ∃ before f after, names = before ++ f :: after ∧ (∀ g ∈ before, ReadablePath g) ∧ dottedSteps f = .error b := by
  induction names with
  | nil => cases h
  | cons f names ih =>
    rcases bind_eq_error.mp h with hf | ⟨found, hf, h⟩
    · exact ⟨[], f, names, rfl, nofun, hasPath_eq_error.mp hf⟩
    rcases bind_eq_error.mp h with h | ⟨more, -, h⟩
    · obtain ⟨before, g, after, rfl, hbefore, hg⟩ := ih h
      refine ⟨f :: before, g, after, rfl, List.forall_mem_cons.mpr ⟨readablePath_iff.mpr ?_, hbefore⟩, hg⟩
      obtain ⟨path, hpath, -⟩ := bind_eq_ok.mp hf
      exact ⟨path, hpath⟩
    · cases h

theorem missingFields_of_unreadable {before after : List String} {f : String} {b : Breakdown}
    (hbefore : ∀ g ∈ before, ReadablePath g) (hf : dottedSteps f = .error b) :
    missingFields output (before ++ f :: after) = .error b := by
  induction before with
  | nil => exact bind_eq_error.mpr (.inl (hasPath_eq_error.mpr hf))
  | cons g before ih =>
    obtain ⟨hg, hbefore⟩ := List.forall_mem_cons.mp hbefore
    obtain ⟨found, hfound⟩ := hg.hasPath output
    exact bind_eq_error.mpr (.inr ⟨found, hfound, bind_eq_error.mpr (.inl (ih hbefore))⟩)

theorem hasFields_iff : s.HasFields output ↔ missingFields output s.rules.output.requiredFields = .ok [] := by
  rw [missingFields_iff, List.filter_eq_nil_iff]
  constructor
  · intro h
    exact ⟨fun f hf => ⟨true, h f hf⟩, fun f hf => by simp [lacks, h f hf]⟩
  · rintro ⟨hfound, hlacks⟩ f hf
    obtain ⟨found, h⟩ := hfound f hf
    cases found with
    | true => exact h
    | false => exact absurd (by simp [lacks, h]) (hlacks f hf)

theorem inspect_of_fits (hs : s.Succeeds output) (hf : s.HasFields output) (hfits : s.Fits schemas output) :
    s.inspect schemas output = .ok () := by
  rw [Step.inspect, if_neg (succeeds_iff.mp hs), hasFields_iff.mp hf]
  cases hschema : s.schema? schemas with
  | none => rfl
  | some entry =>
    dsimp only
    rw [hfits _ _ hschema]

theorem inspect_of_objects {f : OutputFault} (hf : s.Objects schemas output f) :
    s.inspect schemas output = .error (.rejected (.output f)) := by
  cases hf with
  | unsuccessful hs he =>
    rw [Step.inspect, if_pos (not_succeeds_iff.mp hs), he]
  | fields hs hfound hne =>
    rw [Step.inspect, if_neg (succeeds_iff.mp hs), missingFields_iff.mpr ⟨hfound, rfl⟩]
    obtain ⟨n, ns, h⟩ := List.exists_cons_of_ne_nil hne
    rw [Step.missing] at h ⊢
    rw [h]
  | schema hs hf hschema hne =>
    obtain ⟨f, fs, h⟩ := List.exists_cons_of_ne_nil hne
    rw [Step.inspect, if_neg (succeeds_iff.mp hs), hasFields_iff.mp hf, hschema]
    dsimp only
    rw [h]

theorem inspect_of_unreported {b : Breakdown} (hs : ¬ s.Succeeds output) (hb : reportedError output = .error b) :
    s.inspect schemas output = .error (.failed (.breakdown b)) := by
  rw [Step.inspect, if_pos (not_succeeds_iff.mp hs), hb]

theorem inspect_of_unreadable {b : Breakdown} (hs : s.Succeeds output)
    (hb : missingFields output s.rules.output.requiredFields = .error b) :
    s.inspect schemas output = .error (.failed (.breakdown b)) := by
  rw [Step.inspect, if_neg (succeeds_iff.mp hs), hb]

/-- Nothing is wrong with an output by itself, or something is, or the error that it reports cannot be told or a field cannot
be looked for. -/
theorem inspect_cases (s : Step) (schemas : Index OutputCheck) (output : Members) :
    (s.Succeeds output ∧ s.HasFields output ∧ s.Fits schemas output) ∨ (∃ f, s.Objects schemas output f) ∨
      ∃ b, (¬ s.Succeeds output ∧ reportedError output = .error b) ∨
        s.Succeeds output ∧ missingFields output s.rules.output.requiredFields = .error b := by
  by_cases hs : s.Succeeds output
  · cases hm : missingFields output s.rules.output.requiredFields with
    | error b => exact .inr (.inr ⟨b, .inr ⟨hs, rfl⟩⟩)
    | ok missing =>
      obtain ⟨hfound, rfl⟩ := missingFields_iff.mp hm
      by_cases hnone : s.missing output = []
      · have hf : s.HasFields output := hasFields_iff.mpr (hnone ▸ hm)
        by_cases hfits : s.Fits schemas output
        · exact .inl ⟨hs, hf, hfits⟩
        · simp only [Step.Fits, not_forall] at hfits
          obtain ⟨name, check, hschema, hne⟩ := hfits
          exact .inr (.inl ⟨_, .schema hs hf hschema hne⟩)
      · exact .inr (.inl ⟨_, .fields hs hfound hnone⟩)
  · cases he : reportedError output with
    | ok error => exact .inr (.inl ⟨_, .unsuccessful hs he⟩)
    | error b => exact .inr (.inr ⟨b, .inl ⟨hs, rfl⟩⟩)

end

/-! ## The artifacts -/

section
variable {σ : Type} (h : Host σ) (context : Members)

/-- The artifacts of a list are looked for: where each of them is, and whether it is there. -/
inductive Probed : σ → List ArtifactSpec → List (String × Bool) → Prop
  | nil {s : σ} : Probed s [] []
  | cons {s : σ} {a : ArtifactSpec} {specs : List ArtifactSpec} {path : String} {there : Bool} {found : List (String × Bool)} :
      renderTemplate a.file context = .ok path → (h (.artifact path) s).1 = .ok there →
      Probed (h (.artifact path) s).2 specs found → Probed s (a :: specs) ((path, there) :: found)

inductive Unprobed (s : σ) (a : ArtifactSpec) : Stop → Prop
  | unresolved {f : ExpressionFault} : renderTemplate a.file context = .error f → Unprobed s a f.stop
  | unanswered {path : String} {f : Failure} : renderTemplate a.file context = .ok path →
      (h (.artifact path) s).1 = .error f → Unprobed s a f.stop

def absent (found : List (String × Bool)) : List String := (found.filter fun p => !p.2).map Prod.fst

def probes (found : List (String × Bool)) : List Request := found.map fun p => .artifact p.1

end

section
variable {σ : Type} {h : Host σ} {context : Members} {s : σ} {specs : List ArtifactSpec} {found : List (String × Bool)}

theorem Probed.ends (hp : Probed h context s specs found) :
    Check.Ends h (absentArtifacts (recording h) context specs) s (probes found) (.ok (absent found)) := by
  induction hp with
  | nil => exact .pure
  | @cons s a specs path there found hpath hthere _ ih =>
    rw [absentArtifacts]
    have hrest : Check.Ends h (do
          let more ← absentArtifacts (recording h) context specs
          return if there then more else path :: more)
        (h (.artifact path) s).2 (probes found ++ []) (.ok (absent ((path, there) :: found))) := by
      refine .bind ih ?_
      cases there <;> exact .pure
    rw [List.append_nil] at hrest
    exact .bind (t := []) (.expect hpath) (.bind (t := [.artifact path]) (.demand hthere) hrest)

theorem Probed.stops {before after : List ArtifactSpec} {a : ArtifactSpec} {e : Stop} (hp : Probed h context s before found)
    (ha : Unprobed h context (h.after s (probes found)) a e) :
    ∃ t, Check.Ends h (absentArtifacts (recording h) context (before ++ a :: after)) s t (.error e) := by
  induction hp with
  | nil =>
    rw [List.nil_append, absentArtifacts]
    cases ha with
    | unresolved hf => exact ⟨_, .stop (.expect_stop hf)⟩
    | unanswered hpath hf => exact ⟨_, .bind (.expect hpath) (.stop (.demand_stop hf))⟩
  | cons hpath hthere _ ih =>
    obtain ⟨t, ht⟩ := ih ha
    rw [List.cons_append, absentArtifacts]
    exact ⟨_, .bind (.expect hpath) (.bind (.demand hthere) (.stop ht))⟩

theorem probed_or_stops (specs : List ArtifactSpec) (s : σ) : (∃ found, Probed h context s specs found) ∨
    ∃ before a after found e, specs = before ++ a :: after ∧ Probed h context s before found ∧
      Unprobed h context (h.after s (probes found)) a e := by
  induction specs generalizing s with
  | nil => exact .inl ⟨[], .nil⟩
  | cons a specs ih =>
    cases hpath : renderTemplate a.file context with
    | error f => exact .inr ⟨[], a, specs, [], _, rfl, .nil, .unresolved hpath⟩
    | ok path =>
      cases hthere : (h (.artifact path) s).1 with
      | error f => exact .inr ⟨[], a, specs, [], _, rfl, .nil, .unanswered hpath hthere⟩
      | ok there =>
        rcases ih (h (.artifact path) s).2 with ⟨found, hp⟩ | ⟨before, b, after, found, e, rfl, hp, hb⟩
        · exact .inl ⟨_, .cons hpath hthere hp⟩
        · exact .inr ⟨a :: before, b, after, _, e, rfl, .cons hpath hthere hp, hb⟩

end

/-! ## Outputs that are accepted -/

section
variable {σ : Type} (h : Host σ) (schemas : Index OutputCheck) (s : Step) (payload : Members) (state : σ)

/-- An output that is accepted when the host is in some state: nothing is wrong with it, and the required artifacts are there. -/
structure Step.Accepts (output : Members) : Prop where
  succeeds : s.Succeeds output
  fields : s.HasFields output
  fits : s.Fits schemas output
  artifacts : ∃ found, Probed h (resultContext payload output) state s.requiredArtifacts found ∧ ∀ p ∈ found, p.2 = true

/-- An output that is rejected. All missing artifacts are told, unless one cannot be looked for. -/
inductive Step.Refuses : Value → Rejection → Prop
  | kind {v : Value} : (∀ output, v ≠ .mapping output) → Refuses v (.output (.kind v.kindName))
  | objects {output : Members} {f : OutputFault} : s.Objects schemas output f → Refuses (.mapping output) (.output f)
  | artifacts {output : Members} {found : List (String × Bool)} : s.Succeeds output → s.HasFields output →
      s.Fits schemas output → Probed h (resultContext payload output) state s.requiredArtifacts found → absent found ≠ [] →
      Refuses (.mapping output) (.output (.artifacts (absent found)))
  | unprobed {output : Members} {before after : List ArtifactSpec} {a : ArtifactSpec} {found : List (String × Bool)} {e : Stop}
      {r : Rejection} : s.Succeeds output → s.HasFields output → s.Fits schemas output →
      s.requiredArtifacts = before ++ a :: after → Probed h (resultContext payload output) state before found →
      Unprobed h (resultContext payload output) (h.after state (probes found)) a e → e.ofOutput = .rejected r →
      Refuses (.mapping output) r

/-- An output that is neither accepted nor rejected: the error that it reports cannot be told, the name of a field cannot be
read, or an artifact cannot be looked for. -/
inductive Step.Unjudged : Members → Failure → Prop
  | error {output : Members} {b : Breakdown} : ¬ s.Succeeds output → reportedError output = .error b →
      Unjudged output (.breakdown b)
  | field {output : Members} {before after : List String} {f : String} {b : Breakdown} : s.Succeeds output →
      s.rules.output.requiredFields = before ++ f :: after → (∀ g ∈ before, ReadablePath g) → dottedSteps f = .error b →
      Unjudged output (.breakdown b)
  | unprobed {output : Members} {before after : List ArtifactSpec} {a : ArtifactSpec} {found : List (String × Bool)} {e : Stop}
      {f : Failure} : s.Succeeds output → s.HasFields output → s.Fits schemas output →
      s.requiredArtifacts = before ++ a :: after → Probed h (resultContext payload output) state before found →
      Unprobed h (resultContext payload output) (h.after state (probes found)) a e → e.ofOutput = .failed f →
      Unjudged output f

/-- Look for artifacts, and reject an output if some of them are missing. -/
def checkPaths (context : Members) (specs : List ArtifactSpec) : Check σ Unit := do
  match ← absentArtifacts h context specs with
  | [] => pure ()
  | paths => reject (.output (.artifacts paths))

end

section
variable {σ : Type} {h : Host σ} {schemas : Index OutputCheck} {s : Step} {payload output : Members} {state : σ}

/-- An output that need not report success, or does, goes on to the fields. -/
theorem checkSuccess_goes_on (hs : s.Succeeds output) (next : Unit → Check σ Members) :
    (if s.rules.output.requireSuccess then checkSuccess output >>= next else next ()) = next () := by
  unfold checkSuccess
  cases hrequired : s.rules.output.requireSuccess with
  | false => rfl
  | true =>
    rw [reportsSuccess_iff.mpr (hs hrequired)]
    rfl

/-- Artifacts that are not required are not looked for. -/
theorem checkArtifacts_required {c : Contract} : (if s.rules.output.requireArtifacts then (do
      checkArtifacts h c payload output
      return output) else return output) = (do
    checkPaths h (resultContext payload output)
      (if s.rules.output.requireArtifacts then c.contextOut.artifacts.filter ArtifactSpec.required else [])
    return output) := by
  cases s.rules.output.requireArtifacts <;> rfl

/-- The check of an output looks at it as it is and then for its artifacts. -/
theorem checkStepOutput_mapping : checkStepOutput h schemas s payload (.mapping output) = do
    ExceptT.mk (pure (s.inspect schemas output))
    checkPaths h (resultContext payload output) s.requiredArtifacts
    return output := by
  rw [checkStepOutput, Step.inspect]
  by_cases hs : (s.rules.output.requireSuccess && !reportsSuccess output) = true
  · obtain ⟨hrequired, hreports⟩ := Bool.and_eq_true_iff.mp hs
    rw [if_pos hrequired, if_pos hs, checkSuccess, if_neg (by simpa using hreports)]
    cases reportedError output <;> rfl
  refine (checkSuccess_goes_on (succeeds_iff.mpr hs) _).trans ?_
  rw [if_neg hs, checkFields]
  rcases missingFields output s.rules.output.requiredFields with b | (_ | ⟨n, ns⟩)
  · rfl
  · rw [Step.schema?, Step.requiredArtifacts]
    cases s.contract? with
    | none => rfl
    | some c =>
      dsimp only [Option.bind_some]
      rw [← checkArtifacts_required, checkSchema]
      cases schemas.get? c.outputSchema with
      | none => rfl
      | some check =>
        dsimp only [Option.map_some]
        cases check output <;> rfl
  · rfl

theorem absent_eq_nil {found : List (String × Bool)} : absent found = [] ↔ ∀ p ∈ found, p.2 = true := by
  simp [absent]

theorem checkPaths_ends {context : Members} {specs : List ArtifactSpec} {found : List (String × Bool)}
    (hp : Probed h context state specs found) (ha : absent found = []) :
    Check.Ends h (checkPaths (recording h) context specs) state (probes found) (.ok ()) := by
  have hprobed := hp.ends
  rw [ha] at hprobed
  exact Check.Ends.bind_quiet hprobed .pure

theorem checkPaths_rejects {context : Members} {specs : List ArtifactSpec} {found : List (String × Bool)}
    (hp : Probed h context state specs found) (ha : absent found ≠ []) :
    Check.Ends h (checkPaths (recording h) context specs) state (probes found)
      (.error (.rejected (.output (.artifacts (absent found))))) := by
  obtain ⟨path, paths, hpaths⟩ := List.exists_cons_of_ne_nil ha
  have hprobed := hp.ends
  rw [hpaths] at hprobed ⊢
  exact Check.Ends.bind_quiet hprobed .reject

theorem checkStepOutput_ends {x : Except Stop Unit} {t : List Request} (hs : s.Succeeds output) (hf : s.HasFields output)
    (hfits : s.Fits schemas output)
    (hx : Check.Ends h (checkPaths (recording h) (resultContext payload output) s.requiredArtifacts) state t x) :
    Check.Ends h (checkStepOutput (recording h) schemas s payload (.mapping output)) state t (x.map fun _ => output) := by
  rw [checkStepOutput_mapping, inspect_of_fits hs hf hfits]
  refine .bind (t := []) .settled ?_
  cases x with
  | error e => exact .stop hx
  | ok _ => exact .bind_quiet hx .pure

theorem Step.Accepts.ends (ha : s.Accepts h schemas payload state output) :
    ∃ t, Check.Ends h (checkStepOutput (recording h) schemas s payload (.mapping output)) state t (.ok output) := by
  obtain ⟨found, hp, hall⟩ := ha.artifacts
  exact ⟨_, checkStepOutput_ends ha.succeeds ha.fields ha.fits (checkPaths_ends hp (absent_eq_nil.mpr hall))⟩

theorem Step.Refuses.ends {v : Value} {r : Rejection} (hr : s.Refuses h schemas payload state v r) :
    ∃ t e, Check.Ends h (checkStepOutput (recording h) schemas s payload v) state t (.error e) ∧ e.ofOutput = .rejected r := by
  cases hr with
  | kind hv =>
    refine ⟨[], .rejected (.output (.kind v.kindName)), ?_, rfl⟩
    cases v with
    | mapping output => exact absurd rfl (hv output)
    | _ => exact .reject
  | @objects output f hf =>
    refine ⟨[], .rejected (.output f), ?_, rfl⟩
    rw [checkStepOutput_mapping, inspect_of_objects hf]
    exact .stop .settled
  | artifacts hs hf hfits hp ha => exact ⟨_, _, checkStepOutput_ends hs hf hfits (checkPaths_rejects hp ha), rfl⟩
  | unprobed hs hf hfits hsplit hp ha he =>
    obtain ⟨t, ht⟩ := hp.stops ha
    rw [← hsplit] at ht
    exact ⟨_, _, checkStepOutput_ends hs hf hfits (.stop ht), he⟩

theorem Step.Unjudged.ends {f : Failure} (hu : s.Unjudged h schemas payload state output f) :
    ∃ t e, Check.Ends h (checkStepOutput (recording h) schemas s payload (.mapping output)) state t (.error e) ∧
      e.ofOutput = .failed f := by
  have hinspect {b : Breakdown} (hb : s.inspect schemas output = .error (.failed (.breakdown b))) :
      Check.Ends h (checkStepOutput (recording h) schemas s payload (.mapping output)) state []
        (.error (.failed (.breakdown b))) := by
    rw [checkStepOutput_mapping, hb]
    exact .stop .settled
  cases hu with
  | error hs hb => exact ⟨_, _, hinspect (inspect_of_unreported hs hb), rfl⟩
  | field hs hsplit hbefore hf =>
    exact ⟨_, _, hinspect (inspect_of_unreadable hs (by rw [hsplit, missingFields_of_unreadable hbefore hf])), rfl⟩
  | unprobed hs hf hfits hsplit hp ha he =>
    obtain ⟨t, ht⟩ := hp.stops ha
    rw [← hsplit] at ht
    exact ⟨_, _, checkStepOutput_ends hs hf hfits (.stop ht), he⟩

theorem accepts_or_refuses (v : Value) : (∃ output, v = .mapping output ∧ s.Accepts h schemas payload state output) ∨
    (∃ r, s.Refuses h schemas payload state v r) ∨
    ∃ output f, v = .mapping output ∧ s.Unjudged h schemas payload state output f := by
  by_cases hv : ∃ output, v = .mapping output
  · obtain ⟨output, rfl⟩ := hv
    rcases inspect_cases s schemas output with ⟨hs, hf, hfits⟩ | ⟨f, hf⟩ | ⟨b, ⟨hs, hb⟩ | ⟨hs, hb⟩⟩
    · rcases probed_or_stops s.requiredArtifacts state with ⟨found, hp⟩ | ⟨before, a, after, found, e, hsplit, hp, ha⟩
      · by_cases hall : ∀ p ∈ found, p.2 = true
        · exact .inl ⟨output, rfl, hs, hf, hfits, found, hp, hall⟩
        · exact .inr (.inl ⟨_, .artifacts hs hf hfits hp (mt absent_eq_nil.mp hall)⟩)
      · cases he : e.ofOutput with
        | rejected r => exact .inr (.inl ⟨r, .unprobed hs hf hfits hsplit hp ha he⟩)
        | failed f => exact .inr (.inr ⟨output, f, rfl, .unprobed hs hf hfits hsplit hp ha he⟩)
    · exact .inr (.inl ⟨_, .objects hf⟩)
    · exact .inr (.inr ⟨output, _, rfl, .error hs hb⟩)
    · obtain ⟨before, f, after, hsplit, hbefore, hf⟩ := missingFields_eq_error hb
      exact .inr (.inr ⟨output, _, rfl, .field hs hsplit hbefore hf⟩)
  · exact .inr (.inl ⟨_, .kind (not_exists.mp hv)⟩)

end

end Workflow
