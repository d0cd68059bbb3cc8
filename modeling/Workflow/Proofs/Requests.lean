import Workflow.Proofs.Except
import Workflow.Proofs.Recording

/-!
# The requests of a step

The check of an input asks for rows and for files, and the check of an output for the artifacts of its contract. Persist
actions write or run what they name. Nothing else is asked by either of them.
-/

namespace Workflow

/-- What a prepared action asks for. -/
def Prepared.request (context : Members) (p : Prepared) : Request :=
  match p.action with
  | .update u => .update u.table p.values p.clause
  | .insert r => .insert r.table p.values
  | .log r => .log r.table p.values
  | .custom c => .custom c.ref context

inductive Step.InputAsks (s : Step) (payload : Members) : Request → Prop
  | count {e : String} {q : CountQuery} : s.rules.input.exist = some e → existenceQuery e payload none = .ok q →
      InputAsks s payload (.count q)
  | file {source path : String} : source ∈ s.rules.input.files → renderTemplate source payload = .ok path →
      InputAsks s payload (.artifact path)

inductive Step.OutputAsks (s : Step) (payload : Members) : Value → Request → Prop
  | artifact {output : Members} {c : Contract} {a : ArtifactSpec} {path : String} : s.contract? = some c →
      s.rules.output.requireArtifacts = true → a ∈ c.contextOut.artifacts → a.required = true →
      renderTemplate a.file (resultContext payload output) = .ok path →
      OutputAsks s payload (.mapping output) (.artifact path)

inductive Step.PersistAsks (s : Step) (payload output : Members) : Request → Prop
  | action {a : PersistAction} {n : Nat} {p : Prepared} : a ∈ s.rules.persist →
      a.prepare (resultContext payload output) n = .ok p →
      PersistAsks s payload output (p.request (resultContext payload output))

/-- A request that an invocation of a step with a payload can make, if what its body returns satisfies `B`. -/
inductive Step.Asks (s : Step) (payload : Members) (B : Value → Prop) : Request → Prop
  | input {r : Request} : s.InputAsks payload r → Asks s payload B r
  | body : Asks s payload B (.body payload)
  | output {v : Value} {r : Request} : B v → s.OutputAsks payload v r → Asks s payload B r
  | persist {output : Members} {r : Request} : B (.mapping output) → s.PersistAsks payload output r → Asks s payload B r

section
variable {σ : Type} {h : Host σ} {P : Request → Prop} {payload : Members}

/-! ## The input -/

theorem checkPayloadFields_asks {names : List String} :
    Check.Asks (σ := σ) P (checkPayloadFields payload names) (checkPayloadFields payload names) fun _ => True := by
  unfold checkPayloadFields
  generalize names.find? _ = missing
  cases missing with
  | some n => exact .reject
  | none => exact .pure trivial

theorem checkExistence_asks {e : String} (hq : ∀ q, existenceQuery e payload none = .ok q → P (.count q)) :
    Check.Asks P (checkExistence h payload e) (checkExistence (recording h) payload e) fun _ => True :=
  .bind (.expect fun _ he => he) fun q he => .bind (.demand (hq q he)) fun _ _ => .ite .reject (.pure trivial)

theorem checkCurrentState_asks {current : Option String} {e : String} :
    Check.Asks (σ := σ) P (checkCurrentState payload current e) (checkCurrentState payload current e) fun _ => True :=
  .bind (.expect fun _ _ => trivial) fun _ _ => .ite .reject (.pure trivial)

theorem checkFiles_asks {files : List String}
    (hf : ∀ f ∈ files, ∀ path, renderTemplate f payload = .ok path → P (.artifact path)) :
    Check.Asks P (checkFiles h payload files) (checkFiles (recording h) payload files) fun _ => True := by
  induction files with
  | nil => exact .pure trivial
  | cons f files ih =>
    obtain ⟨hf, hfiles⟩ := List.forall_mem_cons.mp hf
    exact .bind (.expect fun _ he => he) fun path he => .bind (.demand (hf path he)) fun _ _ => .ite (ih hfiles) .reject

variable {s : Step}

theorem checkStepInput_asks {current : Option String} : Check.Asks (s.InputAsks payload)
    (checkStepInput h s.rules.input payload current) (checkStepInput (recording h) s.rules.input payload current)
    fun _ => True := by
  have hfiles : Check.Asks (s.InputAsks payload) (checkFiles h payload s.rules.input.files)
      (checkFiles (recording h) payload s.rules.input.files) fun _ => True :=
    checkFiles_asks fun f hf path hp => .file hf hp
  unfold checkStepInput
  -- each rule that is there comes before the files
  refine .bind checkPayloadFields_asks fun _ _ => ?_
  cases he : s.rules.input.exist with
  | none =>
    cases s.rules.input.state with
    | none => exact hfiles
    | some e => exact .bind checkCurrentState_asks fun _ _ => hfiles
  | some e =>
    refine .bind (checkExistence_asks fun q hq => .count he hq) fun _ _ => ?_
    cases s.rules.input.state with
    | none => exact hfiles
    | some e => exact .bind checkCurrentState_asks fun _ _ => hfiles

/-! ## The output -/

theorem checkSuccess_asks {output : Members} :
    Check.Asks (σ := σ) P (checkSuccess output) (checkSuccess output) fun _ => True := by
  refine .ite (.pure trivial) ?_
  cases reportedError output with
  | error b => exact .throw
  | ok error => exact .reject

theorem checkFields_asks {output : Members} {names : List String} :
    Check.Asks (σ := σ) P (checkFields output names) (checkFields output names) fun _ => True := by
  unfold checkFields
  generalize missingFields output names = missing
  rcases missing with b | (_ | ⟨n, ns⟩)
  · exact .throw
  · exact .pure trivial
  · exact .reject

theorem checkSchema_asks {schemas : Index OutputCheck} {name : String} {output : Members} :
    Check.Asks (σ := σ) P (checkSchema schemas name output) (checkSchema schemas name output) fun _ => True := by
  unfold checkSchema
  cases schemas.get? name with
  | none => exact .pure trivial
  | some check =>
    dsimp only
    cases check output with
    | nil => exact .pure trivial
    | cons p ps => exact .reject

theorem absentArtifacts_asks {context : Members} {specs : List ArtifactSpec}
    (ha : ∀ a ∈ specs, ∀ path, renderTemplate a.file context = .ok path → P (.artifact path)) :
    Check.Asks P (absentArtifacts h context specs) (absentArtifacts (recording h) context specs) fun _ => True := by
  induction specs with
  | nil => exact .pure trivial
  | cons a specs ih =>
    obtain ⟨ha, hspecs⟩ := List.forall_mem_cons.mp ha
    refine .bind (.expect fun _ he => he) fun path he => .bind (.demand (ha path he)) fun there _ => ?_
    refine .bind (ih hspecs) fun more _ => ?_
    split
    · exact .pure trivial
    · exact .pure trivial

theorem checkArtifacts_asks {c : Contract} {output : Members} (hc : s.contract? = some c)
    (hr : s.rules.output.requireArtifacts = true) : Check.Asks (s.OutputAsks payload (.mapping output))
      (checkArtifacts h c payload output) (checkArtifacts (recording h) c payload output) fun _ => True := by
  refine .bind (absentArtifacts_asks fun a ha path hp => ?_) fun paths _ => ?_
  · obtain ⟨ha, hrequired⟩ := List.mem_filter.mp ha
    exact .artifact hc hr ha hrequired hp
  · cases paths with
    | nil => exact .pure trivial
    | cons path paths => exact .reject

theorem checkStepOutput_asks {schemas : Index OutputCheck} {v : Value} : Check.Asks (s.OutputAsks payload v)
    (checkStepOutput h schemas s payload v) (checkStepOutput (recording h) schemas s payload v)
    fun ms => v = .mapping ms := by
  cases v with
  | mapping ms =>
    simp only [checkStepOutput]
    -- whether success has to be reported or not, the same checks follow
    refine .ite (.bind checkSuccess_asks fun _ _ => ?_) ?_
    all_goals
      refine .bind checkFields_asks fun _ _ => ?_
      cases hc : s.contract? with
      | none => exact .pure rfl
      | some c =>
        refine .bind checkSchema_asks fun _ _ => ?_
        split
        · exact .bind (checkArtifacts_asks hc ‹_›) fun _ _ => .pure rfl
        · exact .pure rfl
  | _ => exact .reject

end

end Workflow
