import Placeholders.Proofs.CircularDetection
import Placeholders.Proofs.PassStarts

/-! Failing lookups. A lookup that fails ends its pass before any command runs, and with it the
expansion: the string comes back as it was, what earlier passes recorded stays, and what the failing
pass recorded is lost. -/

namespace Placeholders

theorem Lookup.fault?_eq_some_iff {source : Lookup} {key : Text} {fault : Fault} :
    source.fault? key = some fault ↔ source key = .error fault := by
  rw [Lookup.fault?]
  cases source key <;> simp

namespace Services
open Engine
variable {σ : Type} (services : Services σ) (context : Context) (text : Text)

/-- The process is asked for an environment token of the text, cannot answer, and no token before
leads back to itself. -/
def EnvironmentFails : Prop :=
  context.environmentOverride = none ∧ ∃ first token rest fault,
    scan text .environment = first ++ token :: rest ∧
      services.environment token.key = .error fault ∧
        ∀ other ∈ first, ¬ services.LeadsBack context other

def ParentFails : Prop :=
  ∃ token ∈ scan text .parentEnvironment, ∃ fault, services.environment token.key = .error fault

def Fails : Prop := services.EnvironmentFails context text ∨ services.ParentFails text

/-- The first failing lookup of a pass. Those of the parent environment come last, and an override
keeps all others from the process. -/
inductive FailsFirst : Token → Fault → Prop where
  | environment {first rest : List Token} {token : Token} {fault : Fault}
      (override : context.environmentOverride = none)
      (scanned : scan text .environment = first ++ token :: rest)
      (before : ∀ other ∈ first,
        (∃ raw, services.environment other.key = .ok raw) ∧ ¬ services.LeadsBack context other)
      (fails : services.environment token.key = .error fault) : FailsFirst token fault
  | parentEnvironment {first rest : List Token} {token : Token} {fault : Fault}
      (environment : ¬ services.EnvironmentFails context text)
      (scanned : scan text .parentEnvironment = first ++ token :: rest)
      (before : ∀ other ∈ first, ∃ raw, services.environment other.key = .ok raw)
      (fails : services.environment token.key = .error fault) : FailsFirst token fault

variable {services context text}

/-- An override always answers. -/
private theorem fault?_source_eq_some_iff {key : Text} {fault : Fault} :
    (services.source context).fault? key = some fault ↔
      context.environmentOverride = none ∧ services.environment key = .error fault := by
  rw [Lookup.fault?_eq_some_iff, source, Context.environment]
  cases context.environmentOverride with
  | none => simp
  | some table => simp [Lookup.ofOverride]

private theorem fault?_source_eq_none_iff (ho : context.environmentOverride = none) {key : Text} :
    (services.source context).fault? key = none ↔ ∃ raw, services.environment key = .ok raw := by
  rw [Lookup.fault?_eq_none_iff, source, Context.environment, ho]

private theorem goesOn_iff (ho : context.environmentOverride = none) {token : Token} :
    services.goesOn context .environment token = true ↔
      (∃ raw, services.environment token.key = .ok raw) ∧ ¬ services.LeadsBack context token := by
  rw [goesOn_environment, fault?_source_eq_none_iff ho]

private theorem faultIn?_environment_eq_some_iff {fault : Fault} :
    services.faultIn? context text .environment = some fault ↔
      context.environmentOverride = none ∧ ∃ first token rest,
        scan text .environment = first ++ token :: rest ∧
          (∀ other ∈ first, (∃ raw, services.environment other.key = .ok raw) ∧
            ¬ services.LeadsBack context other) ∧
          services.environment token.key = .error fault := by
  rw [faultIn?, Option.bind_eq_some_iff]
  simp only [fault?_source_eq_some_iff, stop?, List.find?_eq_some_iff_append]
  constructor
  · rintro ⟨token, ⟨_, first, rest, hs, hgo⟩, ho, hfails⟩
    refine ⟨ho, first, token, rest, hs, fun other hm => ?_, hfails⟩
    exact (goesOn_iff ho).mp (by simpa using hgo other hm)
  · rintro ⟨ho, first, token, rest, hs, hbefore, hfails⟩
    have hstops : ¬ services.goesOn context .environment token = true := by
      rw [goesOn_iff ho, hfails]
      simp
    refine ⟨token, ⟨by simpa using hstops, first, rest, hs, fun other hm => ?_⟩, ho, hfails⟩
    simp [(goesOn_iff ho).mpr (hbefore other hm)]

/-- Where some lookup before the first token leading back fails, the first such ends the pass. -/
private theorem environmentFails_iff :
    services.EnvironmentFails context text ↔
      ∃ fault, services.faultIn? context text .environment = some fault := by
  constructor
  · rintro ⟨ho, first, token, rest, fault, hs, hfails, hback⟩
    have hstops : ¬ services.goesOn context .environment token = true := by
      rw [goesOn_iff ho, hfails]
      simp
    -- the loop stops at this token or before it, and not because of a value
    obtain ⟨stop, hstop⟩ := Option.isSome_iff_exists.mp
      (List.find?_isSome (p := fun t => !services.goesOn context .environment t)
        |>.mpr ⟨token, List.mem_append_right first List.mem_cons_self, by simpa using hstops⟩)
    have hfind : services.stop? context text = some stop := by
      rw [stop?, hs, List.append_cons, List.find?_append, hstop, Option.some_or]
    have hno : ¬ services.goesOn context .environment stop = true := by
      simpa using List.find?_some hstop
    have hstopfails : ∃ reason, services.environment stop.key = .error reason := by
      rcases List.mem_append.mp (List.mem_of_find?_eq_some hstop) with hm | hm
      · rw [goesOn_iff ho, not_and_not_right] at hno
        by_contra hok
        push Not at hok
        cases he : services.environment stop.key with
        | ok raw => exact hback stop hm (hno ⟨raw, he⟩)
        | error reason => exact hok reason he
      · exact ⟨fault, List.mem_singleton.mp hm ▸ hfails⟩
    obtain ⟨reason, hreason⟩ := hstopfails
    refine ⟨reason, ?_⟩
    rw [faultIn?, hfind]
    exact fault?_source_eq_some_iff.mpr ⟨ho, hreason⟩
  · rintro ⟨fault, hf⟩
    obtain ⟨ho, first, token, rest, hs, hbefore, hfails⟩ := faultIn?_environment_eq_some_iff.mp hf
    exact ⟨ho, first, token, rest, fault, hs, hfails, fun other hm => (hbefore other hm).2⟩

private theorem faultIn?_parentEnvironment_eq_some_iff {fault : Fault} :
    services.faultIn? context text .parentEnvironment = some fault ↔
      ∃ first token rest, scan text .parentEnvironment = first ++ token :: rest ∧
        services.environment token.key = .error fault ∧
          ∀ other ∈ first, ∃ raw, services.environment other.key = .ok raw := by
  rw [faultIn?, List.findSome?_eq_some_iff]
  simp only [Lookup.fault?_eq_some_iff, Lookup.fault?_eq_none_iff]

/-- The fault of a pass is that of its first failing lookup. -/
theorem fault?_eq_some_iff {fault : Fault} :
    services.fault? context text = some fault ↔
      ∃ token, services.FailsFirst context text token fault := by
  rw [fault?, Option.or_eq_some_iff]
  constructor
  · rintro (he | ⟨he, hp⟩)
    · obtain ⟨ho, first, token, rest, hs, hbefore, hfails⟩ :=
        faultIn?_environment_eq_some_iff.mp he
      exact ⟨token, .environment ho hs hbefore hfails⟩
    · obtain ⟨first, token, rest, hs, hfails, hbefore⟩ :=
        faultIn?_parentEnvironment_eq_some_iff.mp hp
      refine ⟨token, .parentEnvironment (fun hef => ?_) hs hbefore hfails⟩
      obtain ⟨_, hsome⟩ := environmentFails_iff.mp hef
      rw [he] at hsome
      cases hsome
  · rintro ⟨token, h⟩
    cases h with
    | @environment first rest _ _ ho hs hbefore hfails =>
      exact .inl (faultIn?_environment_eq_some_iff.mpr
        ⟨ho, first, token, rest, hs, hbefore, hfails⟩)
    | @parentEnvironment first rest _ _ he hs hbefore hfails =>
      have hnone : services.faultIn? context text .environment = none := by
        rw [Option.eq_none_iff_forall_ne_some]
        intro other hsome
        exact he (environmentFails_iff.mpr ⟨other, hsome⟩)
      exact .inr ⟨hnone, faultIn?_parentEnvironment_eq_some_iff.mpr
        ⟨first, token, rest, hs, hfails, hbefore⟩⟩

private theorem exists_fault?_iff :
    (∃ fault, services.fault? context text = some fault) ↔
      services.Fails context text := by
  constructor
  · rintro ⟨fault, hf⟩
    obtain ⟨token, h⟩ := fault?_eq_some_iff.mp hf
    cases h with
    | @environment first rest _ _ ho hs hbefore hfails =>
      exact .inl ⟨ho, first, token, rest, fault, hs, hfails, fun other hm => (hbefore other hm).2⟩
    | @parentEnvironment first rest _ _ he hs hbefore hfails =>
      exact .inr ⟨token, by rw [hs]; simp, fault, hfails⟩
  · intro h
    by_contra hno
    push Not at hno
    have hnone := Option.or_eq_none_iff.mp (Option.eq_none_iff_forall_ne_some.mpr hno)
    rcases h with he | ⟨token, ht, fault, hfails⟩
    · obtain ⟨fault, hf⟩ := environmentFails_iff.mp he
      rw [hnone.1] at hf
      cases hf
    · have hok := List.findSome?_eq_none_iff.mp hnone.2 token ht
      rw [Lookup.fault?_eq_some_iff.mpr hfails] at hok
      cases hok

private theorem pass_eq_error_iff (before : σ) :
    (∃ fault after, (Engine.standard services).pass context text before = (.error fault, after)) ↔
      services.Fails context text := by
  rw [← exists_fault?_iff]
  constructor
  · rintro ⟨fault, after, hp⟩
    exact ⟨fault, ((services.pass_eq_error_iff_fault? context text before).mp hp).1⟩
  · rintro ⟨fault, hf⟩
    exact ⟨fault, before, services.pass_of_fault context text before hf⟩

private theorem status_expand_eq_faulted_iff {input : Text} {state : σ} :
    ((Engine.standard services).expand context input state).1.outcome.status = .faulted ↔
      ∃ n text before, (Engine.standard services).Reaches context input state n text before ∧
        services.Fails context text := by
  constructor
  · intro h
    obtain ⟨n, text, before, hr, hlast⟩ :=
      exists_last (Engine.standard services) context input state
    refine ⟨n, text, before, hr, (pass_eq_error_iff before).mp ?_⟩
    rcases hp : (Engine.standard services).pass context text before with ⟨fault | pass, after⟩
    · exact ⟨fault, after, rfl⟩
    · rw [outcome_expand_of_not_continues hr hp (hlast pass after hp)] at h
      exact absurd h (status_lastOutcome_ne_faulted input pass n)
  · rintro ⟨n, text, before, hr, hfails⟩
    obtain ⟨fault, after, hp⟩ := (pass_eq_error_iff before).mpr hfails
    exact status_expand_of_fault hr hp

/-- A fault at pass number `n` leaves the starts of the passes before it and nothing else. -/
private theorem run_of_failsFirst {input : Text} {state : σ} {n : Nat} {before : σ} {token : Token}
    {fault : Fault} (hr : (Engine.standard services).Reaches context input state n text before)
    (h : services.FailsFirst context text token fault) :
    ∃ starts earlier, starts.length = n ∧
      (Engine.standard services).Starts context input state starts ∧
      before = (answers services.execute context.workspaceFolder
        (starts.flatMap fun start => asked context start.1) state).2 ∧
      earlier.flatMap (·.problems) =
        starts.flatMap (fun start => services.passProblems context start.1 start.2) ∧
      (Engine.standard services).run context input state = (⟨earlier, .faulted fault⟩, before) := by
  obtain ⟨starts, hlen, hs, hb⟩ := exists_starts hr
  have hp := services.pass_of_fault context text before (fault?_eq_some_iff.mpr ⟨token, h⟩)
  obtain ⟨earlier, hearlier, hl, _, hrun⟩ := run_of_fault hr hp
  exact ⟨starts, earlier, hlen, hs, hb, flatMap_problems hs hl (hlen.trans hearlier.symm), hrun⟩

/-- A pass fails exactly where one of its lookups does, and an expansion where one of its passes
does. Then the string comes back as it was; the problems of the passes before are recorded, but none
of the failing one; and the only commands run are those of the passes before. -/
theorem fault_discards_pass (services : Services σ) (context : Context) (input : Text) (state : σ) :
    (∀ text before,
      (∃ fault after, (Engine.standard services).pass context text before = (.error fault, after)) ↔
        services.Fails context text) ∧
    (((Engine.standard services).expand context input state).1.outcome.status = .faulted ↔
      ∃ n text before, (Engine.standard services).Reaches context input state n text before ∧
        services.Fails context text) ∧
    ∀ n text before, (Engine.standard services).Reaches context input state n text before →
      services.Fails context text →
      ∃ token fault starts, services.FailsFirst context text token fault ∧ starts.length = n ∧
        (Engine.standard services).Starts context input state starts ∧
        let recorded := starts.flatMap fun start => services.passProblems context start.1 start.2
        let after := (answers services.execute context.workspaceFolder
          (starts.flatMap fun start => asked context start.1) state).2
        (∀ problems, (Engine.standard services).tryExpandInto context input problems state =
          ((.error fault, problems ++ recorded), after)) ∧
        ∀ sink, (Engine.standard services).expandInto context input sink state =
          (({ result := input, changed := false, circular := none, status := .faulted, passes := 0 },
            sink.map (· ++ (recorded ++
              [⟨.unexpectedFault, input ++ ": ".toList ++ fault.report⟩]))), after) := by
  refine ⟨fun text before => pass_eq_error_iff before, status_expand_eq_faulted_iff, ?_⟩
  intro n text before hr hfails
  obtain ⟨fault, hf⟩ := exists_fault?_iff.mpr hfails
  obtain ⟨token, h⟩ := fault?_eq_some_iff.mp hf
  obtain ⟨starts, earlier, hlen, hs, hb, hproblems, hrun⟩ := run_of_failsFirst hr h
  refine ⟨token, fault, starts, h, hlen, hs, fun problems => ?_, fun sink => ?_⟩
  · rw [tryExpandInto, tryExpand, hrun, ← hb, ← hproblems]
    rfl
  · rw [expandInto, expand, hrun, ← hb, ← hproblems]
    rfl

/-- A world in which the variable `BAD` cannot be read and commands fail, but are counted. -/
def counting : Services Nat where
  environment := Lookup.failingOn ["BAD".toList] still.environment
  normalize := still.normalize
  folders := []
  execute := fun name _ count => (.error (.unknown name), count + 1)

/-- The second pass fails: the command has run once, and what the first pass recorded stays. -/
theorem fault_counting :
    let context : Context :=
      { vars := .bind .bare "a".toList "$penv\x7bBAD\x7d".toList (by decide) (by decide) }
    let input := "$\x7ba\x7d$\x7bcommand:c\x7d".toList
    let text := "$penv\x7bBAD\x7d$\x7bcommand:c\x7d".toList
    (Engine.standard counting).Reaches context input 0 1 text 1 ∧ counting.Fails context text ∧
      ∃ fault : Fault, (Engine.standard counting).expandInto context input (some []) 0 =
        ((.faulted input, some [⟨.commandExecutionFailed, "$\x7bcommand:c\x7d".toList⟩,
          ⟨.unexpectedFault, input ++ ": ".toList ++ fault.report⟩]), 1) := by
  intro context input text
  have hpass := counting.pass_of_fault?_eq_none context input 0 (by decide)
  have hresult : (counting.finished context input 0).result = text := by decide
  have hafter : (counting.commandAnswers context input 0).2 = 1 := by decide
  have hreach := Reaches.start.next hpass ⟨by decide, by decide, rfl, by decide⟩
  rw [hresult, hafter] at hreach
  have hfails : counting.Fails context text :=
    .inr ⟨⟨"$penv\x7bBAD\x7d".toList, .parentEnvironment, "BAD".toList⟩, by decide, _, rfl⟩
  obtain ⟨_, fault, starts, _, hlen, hs, _, hexpand⟩ :=
    (fault_discards_pass counting context input 0).2.2 1 text 1 hreach hfails
  obtain ⟨⟨first, before⟩, rfl⟩ := List.length_eq_one_iff.mp hlen
  obtain ⟨rfl, rfl⟩ := (hs 0 first before rfl).unique .start
  exact ⟨hreach, hfails, fault, hexpand (some [])⟩

end Services
end Placeholders
