import Placeholders.Proofs.CommandCalls
import Placeholders.Proofs.PairedRuns

/-! Environment overrides. A context that overrides the environment answers every lookup itself, so
the process has a say only where a placeholder of the parent environment asks for it. -/

namespace Placeholders

/-- An override leaves nothing for the process to answer. -/
theorem Context.environment_of_override {context : Context} {table : Table (Option Text)}
    (h : context.environmentOverride = some table) (process : Lookup) :
    context.environment process = Lookup.ofOverride table := by
  rw [environment, h]

namespace Services
open Engine
variable {σ : Type} {services : Services σ} {context : Context}

def withEnvironment (services : Services σ) (process : Lookup) : Services σ :=
  { services with environment := process }

/-- Keeping a transcript beside the state changes nothing in a pass. -/
private theorem agree_recording (services : Services σ) (context : Context) (text : Text) :
    (Engine.standard services).Agree (Engine.standard services.recording) context context
      (fun before beside => beside.2 = before) text := by
  refine agree_of_part rfl fun before beside hrel => ?_
  obtain ⟨log, rfl⟩ : ∃ log, beside = (log, before) := ⟨beside.1, Prod.ext rfl hrel⟩
  have hanswers := services.commandAnswers_recording context text log before
  refine ⟨services.part_withExecutor context text before (congrArg Prod.fst hanswers), ?_⟩
  rw [hanswers]

/-- A transcript of the commands does not lead to other strings. -/
private theorem reaches_of_recording {input : Text} {state : σ} {transcript : List Exchange} {n : Nat}
    {text : Text} {between : List Exchange × σ}
    (h : (Engine.standard services.recording).Reaches context input (transcript, state) n text
      between) :
    (Engine.standard services).Reaches context input state n text between.2 := by
  obtain ⟨before, hr, rfl⟩ :=
    h.of_agree rfl (fun _ text _ _ => services.agree_recording context text) rfl
  exact hr

variable {table : Table (Option Text)} {text : Text}

/-- Without placeholders of the parent environment no lookup can fail. -/
private theorem fault?_of_override (ho : context.environmentOverride = some table)
    (hs : scan text .parentEnvironment = []) : services.fault? context text = none := by
  rw [fault?, Option.or_eq_none_iff, faultIn?, faultIn?, hs, Option.bind_eq_none_iff]
  refine ⟨fun token _ => ?_, rfl⟩
  rw [source, Context.environment_of_override ho]
  rfl

/-- Then all namespaces add to a pass what they would add with another process. -/
private theorem part_withEnvironment (process : Lookup)
    (ho : context.environmentOverride = some table) (hs : scan text .parentEnvironment = [])
    (state : σ) :
    (services.withEnvironment process).part context text state =
      services.part context text state := by
  have hsource : (services.withEnvironment process).source context = services.source context := by
    rw [source, source, Context.environment_of_override ho, Context.environment_of_override ho]
  have hgo : (services.withEnvironment process).goesOn context .environment =
      services.goesOn context .environment := by
    funext token
    rw [goesOn, hsource]
    rfl
  funext ns
  cases ns with
  | environment =>
    simp only [part, value?, resolved, flagged?, stop?, hgo, hsource]
    rfl
  | parentEnvironment => simp [part, resolved, hs, recorded]
  | _ => rfl

/-- Where no string of a run holds a placeholder of the parent environment, every pass agrees with
the one that another process would have. -/
private theorem expand_withEnvironment (services : Services σ) (process : Lookup)
    (ho : context.environmentOverride = some table) {input : Text} {state : σ}
    (hp : ∀ n text before, (Engine.standard services).Reaches context input state n text before →
      scan text .parentEnvironment = []) :
    (Engine.standard (services.withEnvironment process)).expand context input state =
      (Engine.standard services).expand context input state := by
  have hagree (n : Nat) (text : Text) (before : σ)
      (hr : (Engine.standard services).Reaches context input state n text before) :
      (Engine.standard services).Agree (Engine.standard (services.withEnvironment process)) context
        context Eq text := by
    have hs := hp n text before hr
    refine agree_of_part ((fault?_of_override ho hs).trans (fault?_of_override ho hs).symm) ?_
    rintro world _ rfl
    exact ⟨part_withEnvironment process ho hs world, rfl⟩
  exact expand_eq_of_agree rfl hagree

private theorem status_expand_of_override (ho : context.environmentOverride = some table)
    {input : Text} {state : σ}
    (hp : ∀ n text before, (Engine.standard services).Reaches context input state n text before →
      scan text .parentEnvironment = []) :
    ((Engine.standard services).expand context input state).1.outcome.status ≠ .faulted := by
  obtain ⟨n, text, before, hr, hlast⟩ := exists_last (Engine.standard services) context input state
  have hpass := services.pass_of_fault?_eq_none context text before
    (fault?_of_override ho (hp n text before hr))
  rw [outcome_expand_of_not_continues hr hpass (hlast _ _ hpass)]
  exact status_lastOutcome_ne_faulted _ _ _

/-- With an override, what the process would answer has no effect on an expansion that never comes
to a placeholder of the parent environment: another process gives the same outcome, the same
problems and the same state of the world, down to a transcript of the commands, and neither of the
two expansions fails. -/
theorem override_isolates (services : Services σ) (process : Lookup) (context : Context)
    (input : Text) (state : σ) (ho : context.environmentOverride.isSome = true)
    (hp : ∀ n text before, (Engine.standard services).Reaches context input state n text before →
      scan text .parentEnvironment = []) :
    let engine := Engine.standard services
    let twin := Engine.standard (services.withEnvironment process)
    twin.expand context input state = engine.expand context input state ∧
      (∀ transcript, (Engine.standard (services.withEnvironment process).recording).expand context
          input (transcript, state) =
        (Engine.standard services.recording).expand context input (transcript, state)) ∧
      (engine.expand context input state).1.outcome.status ≠ .faulted ∧
      (twin.expand context input state).1.outcome.status ≠ .faulted := by
  obtain ⟨table, htable⟩ := Option.isSome_iff_exists.mp ho
  have hstatus := status_expand_of_override htable hp
  have hrecording : (services.withEnvironment process).recording =
      services.recording.withEnvironment process := rfl
  dsimp only
  rw [expand_withEnvironment services process htable hp, hrecording]
  refine ⟨rfl, fun transcript => ?_, hstatus, hstatus⟩
  exact expand_withEnvironment services.recording process htable
    fun n text between hr => hp n text between.2 (reaches_of_recording hr)

/-- A variable of the override and one that it lacks, where the process could answer for neither. -/
theorem override_isolates_still :
    let process : Lookup := fun name => .error (.notUnicode name)
    let context : Context :=
      { vars := .bare
        environmentOverride := some (Table.ofList [("A".toList, some "x".toList)]) }
    let input := "$\x7benv:A\x7d$\x7benv:Z\x7d$\x7bcommand:c\x7d".toList
    let text := "x$\x7bcommand:c\x7d".toList
    (context.environmentOverride.isSome = true ∧ ∀ n text before,
      (Engine.standard still).Reaches context input () n text before →
        scan text .parentEnvironment = []) ∧
      (Engine.standard (still.withEnvironment process)).expand context input () =
        (⟨{ result := text, changed := true, status := .complete, passes := 2 },
          [⟨.commandExecutionFailed, "$\x7bcommand:c\x7d".toList⟩,
            ⟨.commandExecutionFailed, "$\x7bcommand:c\x7d".toList⟩]⟩, ()) := by
  intro process context input text
  have hfirst := still.pass_of_fault?_eq_none context input ()
    (fault?_of_override rfl (by decide +kernel))
  have hresult : (still.finished context input ()).result = text := by decide +kernel
  have hnext := Reaches.start.next hfirst ⟨by decide +kernel, by decide, rfl, by decide +kernel⟩
  rw [hresult] at hnext
  have hsecond := still.pass_of_fault?_eq_none context text ()
    (fault?_of_override rfl (by decide +kernel))
  have hlast : ¬ Continues context 1 (still.finished context text ()) :=
    not_continues_of_unchanged (by decide +kernel)
  have hparent : ∀ n text before, (Engine.standard still).Reaches context input () n text before →
      scan text .parentEnvironment = [] := by
    intro n other before hr
    have hle := hnext.le_of_not_continues hsecond hlast hr
    rcases Nat.le_one_iff_eq_zero_or_eq_one.mp hle with rfl | rfl
    · rw [(hr.unique .start).1]
      decide +kernel
    · rw [(hr.unique hnext).1]
      decide +kernel
  obtain ⟨hsame, _⟩ := override_isolates still process context input () rfl hparent
  refine ⟨⟨rfl, hparent⟩, ?_⟩
  rw [hsame]
  decide +kernel

end Services
end Placeholders
