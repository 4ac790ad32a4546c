import Placeholders.Batch
import Placeholders.Proofs.CircularDetection
import Placeholders.Proofs.LeftmostLongest
import Placeholders.Proofs.PassStarts

/-! The problems of an expansion, told in full: those of its passes in order, then at most one more,
which stands for the status. A batch is complete exactly if nothing was recorded. -/

namespace Placeholders

def Status.problemKind? : Status → Option ProblemKind
  | .complete => none
  | .circularReference => some .circularReference
  | .maxRecursionReached => some .maxRecursionReached
  | .faulted => some .unexpectedFault

def ProblemKind.Ends (kind : ProblemKind) : Prop :=
  ∃ status : Status, status.problemKind? = some kind

namespace ProblemList

theorem countKind_append (first second : ProblemList) (kind : ProblemKind) :
    countKind (first ++ second) kind = countKind first kind + countKind second kind :=
  List.countP_append

/-- In front of the last element stands nothing of a second list with at most one. -/
theorem mem_of_mem_dropLast_append {first second : ProblemList} (h : second.length ≤ 1)
    {problem : Problem} (hm : problem ∈ (first ++ second).dropLast) : problem ∈ first := by
  cases second with
  | nil =>
    rw [List.append_nil] at hm
    exact List.dropLast_subset first hm
  | cons last rest =>
    obtain rfl : rest = [] := List.length_eq_zero_iff.mp (by simpa using h)
    rwa [List.dropLast_concat] at hm

theorem countKind_eq_zero {problems : ProblemList} {kind : ProblemKind}
    (h : ∀ problem ∈ problems, problem.kind ≠ kind) : problems.countKind kind = 0 := by
  rw [countKind, List.countP_eq_zero]
  intro problem hm
  simpa using h problem hm

end ProblemList

namespace Run

/-- An outcome counts all passes of its run, unless they are given up. -/
theorem passes_outcome {run : Run} {input : Text}
    (h : (run.outcome input).status ≠ .faulted) :
    (run.outcome input).passes = run.passes.length := by
  obtain ⟨passes, ending⟩ := run
  cases ending with
  | faulted fault => exact absurd rfl h
  | _ => rfl

/-- What an outcome shows is the text at which the passes ended, less its escapes. -/
theorem result_outcome {run : Run} {input : Text} (h : (run.outcome input).status ≠ .faulted) :
    (run.outcome input).result = Substitution.unescape (run.text input) := by
  obtain ⟨passes, ending⟩ := run
  cases ending with
  | faulted fault => exact absurd rfl h
  | _ => rfl

/-- The last problem tells what the outcome tells. -/
theorem endProblems_of_status (run : Run) (input : Text) :
    ((run.outcome input).status = .complete → run.endProblems input = []) ∧
    ((run.outcome input).status = .circularReference → ∃ c, (run.outcome input).circular = some c ∧
      run.endProblems input = [⟨.circularReference, c.token⟩]) ∧
    ((run.outcome input).status = .maxRecursionReached →
      run.endProblems input = [⟨.maxRecursionReached, run.text input⟩]) := by
  obtain ⟨passes, ending⟩ := run
  cases ending with
  | complete => exact ⟨fun _ => rfl, nofun, nofun⟩
  | circular token => exact ⟨nofun, fun _ => ⟨_, rfl, rfl⟩, nofun⟩
  | capped => exact ⟨nofun, nofun, fun _ => rfl⟩
  | faulted fault => exact ⟨nofun, nofun, nofun⟩

theorem map_kind_endProblems (run : Run) (input : Text) :
    (run.endProblems input).map (·.kind) = (run.outcome input).status.problemKind?.toList := by
  obtain ⟨passes, ending⟩ := run
  cases ending <;> rfl

theorem length_endProblems_le (run : Run) (input : Text) : (run.endProblems input).length ≤ 1 := by
  have hlen := congrArg List.length (map_kind_endProblems run input)
  rw [List.length_map] at hlen
  rw [hlen]
  cases (run.outcome input).status.problemKind? <;> simp

/-- Each status with a kind of its own is counted by the problems of that kind. -/
theorem countKind_endProblems (run : Run) (input : Text) {status : Status} {kind : ProblemKind}
    (h : status.problemKind? = some kind) :
    (run.endProblems input).countKind kind =
      if (run.outcome input).status = status then 1 else 0 := by
  have hcount : (run.endProblems input).countKind kind =
      ((run.endProblems input).map (·.kind)).countP (· = kind) := by
    rw [List.countP_map]
    rfl
  rw [hcount, map_kind_endProblems]
  cases (run.outcome input).status <;> cases status <;> cases h <;> rfl

/-- A run that ends without a problem is complete. -/
theorem status_outcome_of_endProblems_eq_nil {run : Run} {input : Text}
    (h : run.endProblems input = []) : (run.outcome input).status = .complete := by
  obtain ⟨passes, ending⟩ := run
  cases ending with
  | complete => rfl
  | _ => cases h

end Run

namespace Engine
variable {σ : Type} {engine : Engine σ} {context : Context}

/-- The passes of a run end with the one over its last start. -/
private theorem exists_last_start {input : Text} {state : σ} {starts : List (Text × σ)}
    (hne : (engine.expand context input state).1.outcome.status ≠ .faulted)
    (hs : engine.Starts context input state starts)
    (hlen : starts.length = (engine.run context input state).1.passes.length) :
    ∃ text before pass after, starts.getLast? = some (text, before) ∧
      engine.pass context text before = (.ok pass, after) ∧
      (engine.run context input state).1.text input = pass.result := by
  obtain ⟨n, text, before, pass, after, hr, hp, hc⟩ := exists_last_of_ne_faulted hne
  obtain ⟨earlier, rfl, _, _, hrun⟩ := run_of_not_continues hr hp hc
  rw [hrun] at hlen ⊢
  rw [List.length_append, List.length_singleton] at hlen
  obtain ⟨⟨other, between⟩, hstart⟩ : ∃ start, starts[earlier.length]? = some start :=
    ⟨starts[earlier.length], List.getElem?_eq_getElem (by omega)⟩
  obtain ⟨rfl, rfl⟩ := hr.unique (hs _ other between hstart)
  refine ⟨text, before, pass, after, ?_, hp, ?_⟩
  · rw [List.getLast?_eq_getElem?, hlen, Nat.add_sub_cancel, hstart]
  · rw [Run.text, List.getLast?_concat]

private theorem exists_expand_of_mem {inputs : List Text} {state : σ} {expansion : Expansion}
    (h : expansion ∈ (engine.expandEach context inputs state).1) :
    ∃ input before, expansion = (engine.expand context input before).1 := by
  induction inputs generalizing state with
  | nil => cases h
  | cons input inputs ih =>
    rcases List.mem_cons.mp h with rfl | h
    · exact ⟨input, state, rfl⟩
    · exact ih h

/-- Every string that is not complete has a problem. -/
theorem isComplete_expandBatch (engine : Engine σ) (context : Context) (inputs : List Text)
    (state : σ) :
    (engine.expandBatch context inputs state).1.isComplete =
      (engine.expandBatch context inputs state).1.problems.isEmpty := by
  rw [Batch.isComplete, Bool.and_eq_left_iff_imp, List.isEmpty_iff, Batch.problems,
    List.flatten_eq_nil_iff]
  intro h
  simp only [Batch.outcomes, List.all_map, List.all_eq_true, Function.comp_apply]
  intro expansion hm
  have hnil : expansion.problems = [] := h _ (List.mem_map_of_mem hm)
  obtain ⟨input, before, rfl⟩ := exists_expand_of_mem hm
  have hend := (List.append_eq_nil_iff.mp hnil).2
  exact decide_eq_true (Run.status_outcome_of_endProblems_eq_nil hend)

end Engine

namespace Services
open Engine
variable {σ : Type} (services : Services σ) (context : Context)

/-- What passes record never stands for a status. -/
private theorem not_ends_of_mem_flatMap {starts : List (Text × σ)} {problem : Problem}
    (h : problem ∈ starts.flatMap fun start => services.passProblems context start.1 start.2) :
    ¬ problem.kind.Ends := by
  rintro ⟨status, hs⟩
  obtain ⟨start, _, h⟩ := List.mem_flatMap.mp h
  rcases services.kind_of_mem_passProblems context h with hk | hk | hk <;>
    rw [hk] at hs <;> cases status <;> cases hs

/-- The starts of the passes tell all problems of a run but the last. -/
private theorem exists_trace (input : Text) (state : σ) :
    ∃ starts, (Engine.standard services).Starts context input state starts ∧
      starts.length = ((Engine.standard services).run context input state).1.passes.length ∧
      ((Engine.standard services).expand context input state).1 =
        ⟨((Engine.standard services).run context input state).1.outcome input,
          (starts.flatMap fun start => services.passProblems context start.1 start.2) ++
            ((Engine.standard services).run context input state).1.endProblems input⟩ := by
  have hl := lists_run (Engine.standard services) context input state
  obtain ⟨starts, hlen, hs⟩ := hl.exists_starts
  refine ⟨starts, hs, hlen, ?_⟩
  rw [expand_eq, Run.problems, Run.passProblems, flatMap_problems hs hl hlen]

/-- Problems of a kind that stands for a status tell whether the expansion has it. -/
theorem countKind_expand (input : Text) (state : σ) {status : Status} {kind : ProblemKind}
    (h : status.problemKind? = some kind) :
    ((Engine.standard services).expand context input state).1.problems.countKind kind =
      if ((Engine.standard services).expand context input state).1.outcome.status = status then 1
      else 0 := by
  obtain ⟨starts, _, _, he⟩ := services.exists_trace context input state
  have hzero : ProblemList.countKind
      (starts.flatMap fun start => services.passProblems context start.1 start.2) kind = 0 :=
    ProblemList.countKind_eq_zero fun problem hm hk =>
      services.not_ends_of_mem_flatMap context hm ⟨status, hk ▸ h⟩
  rw [he, ProblemList.countKind_append, hzero, Nat.zero_add, Run.countKind_endProblems _ _ h]

/-- The problems of an expansion are those of its passes, in order, and one more that stands for the
status unless it is complete. Where the passes were cut off it has the string that the last of them
left, with its escapes. -/
theorem problems_expand (services : Services σ) (context : Context) (input : Text) (state : σ) :
    let outcome := ((Engine.standard services).expand context input state).1.outcome
    let problems := ((Engine.standard services).expand context input state).1.problems
    (outcome.status ≠ .faulted → ∃ starts last,
      (Engine.standard services).Starts context input state starts ∧
      starts.length = outcome.passes ∧
      problems =
        (starts.flatMap fun start => services.passProblems context start.1 start.2) ++ last ∧
      (outcome.status = .complete → last = []) ∧
      (outcome.status = .circularReference → ∃ c, outcome.circular = some c ∧
        last = [⟨.circularReference, c.token⟩]) ∧
      (outcome.status = .maxRecursionReached → ∃ text before pass after,
        starts.getLast? = some (text, before) ∧
        (Engine.standard services).pass context text before = (.ok pass, after) ∧
        Substitution.Unescapes pass.result outcome.result ∧
        last = [⟨.maxRecursionReached, pass.result⟩])) ∧
    (∀ status kind, Status.problemKind? status = some kind →
      problems.countKind kind = if outcome.status = status then 1 else 0) ∧
    (∀ problem ∈ problems.dropLast, ¬ problem.kind.Ends) ∧
    ∀ inputs, ((Engine.standard services).expandBatch context inputs state).1.isComplete =
      ((Engine.standard services).expandBatch context inputs state).1.problems.isEmpty := by
  intro outcome problems
  obtain ⟨starts, hs, hlen, he⟩ := services.exists_trace context input state
  have houtcome : outcome = _ := congrArg Expansion.outcome he
  have hproblems : problems = _ := congrArg Expansion.problems he
  refine ⟨fun hne => ?_, fun _ _ hkind => services.countKind_expand context input state hkind,
    fun problem hm => ?_, fun inputs =>
      isComplete_expandBatch (Engine.standard services) context inputs state⟩
  · clear_value outcome problems
    subst houtcome hproblems
    obtain ⟨hcomplete, hcircular, hcapped⟩ := Run.endProblems_of_status
      ((Engine.standard services).run context input state).1 input
    refine ⟨starts, _, hs, hlen.trans (Run.passes_outcome hne).symm, rfl, hcomplete, hcircular,
      fun hstatus => ?_⟩
    obtain ⟨text, before, pass, after, hlast, hp, htext⟩ :=
      exists_last_start (by rwa [expand_eq]) hs hlen
    refine ⟨text, before, pass, after, hlast, hp, ?_, ?_⟩
    · rw [Substitution.unescapes_iff, Run.result_outcome hne, htext]
    · rw [hcapped hstatus, htext]
  · rw [hproblems] at hm
    exact services.not_ends_of_mem_flatMap context
      (ProblemList.mem_of_mem_dropLast_append (Run.length_endProblems_le _ input) hm)

/-- An unknown variable is recorded by each of two passes, of which the second one is circular, and
by each of ten, which are cut off; then the escape is recorded with the string. -/
theorem problems_selfNaming_growing :
    let input := "y$env\x7bB\x7d$\x7bnone\x7d".toList
    let escaped := "$\x7bnone\x7d$\x7bdollar\x7d$\x7bvariant:v\x7d".toList
    (((Engine.standard selfNaming).expand { vars := .bare } input ()).1.outcome.status ≠ .faulted ∧
      ∃ starts, (Engine.standard selfNaming).Starts { vars := .bare } input () starts ∧
        starts.length = 2 ∧
        ((Engine.standard selfNaming).expand { vars := .bare } input ()).1.problems =
          (starts.flatMap fun start =>
            selfNaming.passProblems { vars := .bare } start.1 start.2) ++
            [⟨.circularReference, "$\x7benv:A\x7d".toList⟩]) ∧
    ((Engine.standard still).expand .growing escaped ()).1.outcome.status ≠ .faulted ∧
      ((Engine.standard still).expand .growing escaped ()).1.outcome.result =
        "$\x7bnone\x7d$xxxxxxxxxx$\x7bvariant:v\x7d".toList ∧
      ∃ starts, (Engine.standard still).Starts .growing escaped () starts ∧
        starts.length = 10 ∧
        ((Engine.standard still).expand .growing escaped ()).1.problems =
          (starts.flatMap fun start => still.passProblems .growing start.1 start.2) ++
            [⟨.maxRecursionReached,
              "$\x7bnone\x7d$\x7bdollar\x7dxxxxxxxxxx$\x7bvariant:v\x7d".toList⟩] := by
  intro input escaped
  constructor
  · have houtcome : ((Engine.standard selfNaming).expand { vars := .bare } input ()).1.outcome =
        { result := "y$\x7benv:A\x7d$\x7bnone\x7d".toList
          changed := true
          circular := some ⟨"A".toList, "$\x7benv:A\x7d".toList, input⟩
          status := .circularReference
          passes := 2 } := by
      decide +kernel
    have hne : ((Engine.standard selfNaming).expand { vars := .bare } input ()).1.outcome.status ≠
        .faulted := by
      rw [houtcome]
      decide
    obtain ⟨starts, last, hs, hlen, hproblems, _, hcircular, _⟩ :=
      (problems_expand selfNaming { vars := .bare } input ()).1 hne
    rw [houtcome] at hlen hcircular
    obtain ⟨c, hc, rfl⟩ := hcircular rfl
    obtain rfl := Option.some.inj hc
    exact ⟨hne, starts, hs, hlen, hproblems⟩
  · have houtcome : ((Engine.standard still).expand .growing escaped ()).1.outcome =
        { result := "$\x7bnone\x7d$xxxxxxxxxx$\x7bvariant:v\x7d".toList
          changed := true
          status := .maxRecursionReached
          passes := 10 } := by
      decide +kernel
    have hend : ((Engine.standard still).expand .growing escaped ()).1.problems.getLast? =
        some ⟨.maxRecursionReached,
          "$\x7bnone\x7d$\x7bdollar\x7dxxxxxxxxxx$\x7bvariant:v\x7d".toList⟩ := by
      decide +kernel
    have hne : ((Engine.standard still).expand .growing escaped ()).1.outcome.status ≠
        .faulted := by
      rw [houtcome]
      decide
    obtain ⟨starts, last, hs, hlen, hproblems, _, _, hcapped⟩ :=
      (problems_expand still .growing escaped ()).1 hne
    rw [houtcome] at hlen hcapped
    obtain ⟨text, before, pass, after, _, _, _, rfl⟩ := hcapped rfl
    rw [hproblems, List.getLast?_concat] at hend
    rw [Option.some.inj hend] at hproblems
    exact ⟨hne, congrArg Outcome.result houtcome, starts, hs, hlen, hproblems⟩

end Services
end Placeholders
