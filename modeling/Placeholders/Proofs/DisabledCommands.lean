import Placeholders.Proofs.CommandCalls
import Placeholders.Proofs.PairedRuns
import Placeholders.Proofs.ProblemTrace

/-! Disabled commands. In a context that disables commands the executor is not part of the world: no
pass asks it, wherever the command placeholder came from, and nothing that is reported depends on
what it would have answered. -/

namespace Placeholders
namespace Services
open Engine
variable {σ τ : Type} (services : Services σ) (execute : Executor τ) {context : Context}

/-- Passes with different executors agree, and leave both worlds as they were. -/
private theorem agree_withExecutor (hd : context.commandsDisabled = true) (state : σ) (other : τ)
    (text : Text) :
    (Engine.standard services).Agree (Engine.standard (services.withExecutor execute)) context
      context (fun before beside => before = state ∧ beside = other) text := by
  refine agree_of_part rfl fun before beside hrel => ?_
  rw [commandAnswers_of_disabled _ _ _ _ hd, commandAnswers_of_disabled _ _ _ _ hd]
  refine ⟨services.part_withExecutor context text before ?_, hrel⟩
  rw [commandAnswers_of_disabled _ _ _ _ hd, commandAnswers_of_disabled _ _ _ _ hd]

/-- With any other executor a batch gives the same, and the world of that executor stays as it is. -/
private theorem expandEach_withExecutor (hd : context.commandsDisabled = true) (inputs : List Text)
    (state : σ) (other : τ) :
    (Engine.standard (services.withExecutor execute)).expandEach context inputs other =
      (((Engine.standard services).expandEach context inputs state).1, other) := by
  obtain ⟨behind, heach, _, rfl⟩ := expandEach_of_agree rfl
    (services.agree_withExecutor execute hd state other) inputs ⟨rfl, rfl⟩
  exact heach

private theorem countKind_passProblems (hd : context.commandsDisabled = true) (text : Text)
    (state : σ) :
    (services.passProblems context text state).countKind .commandsDisabled =
      if scan text .command = [] then 0 else 1 := by
  have hunknown : (unknown context.vars.get? (scan text .variable)).countKind .commandsDisabled = 0 :=
    ProblemList.countKind_eq_zero fun problem hm => by simp [kind_of_mem_unknown hm]
  rw [passProblems, ProblemList.countKind_append, hunknown, commandProblems, if_pos hd]
  cases scan text .command <;> simp [ProblemList.countKind]

/-- No command ever has a replacement, not even one that stands in another text. -/
private theorem get?_afterParts_of_disabled (hd : context.commandsDisabled = true) (text : Text)
    (state : σ) {elsewhere : Text} {token : Token} (ht : token ∈ scan elsewhere .command) :
    (services.afterParts context text state Namespace.all).substitution.get? token.literal =
      none := by
  rw [Option.eq_none_iff_forall_ne_some]
  intro value hv
  obtain ⟨ns, _, found, hf, hl, hy⟩ := (services.get?_afterParts context text state _).mp hv
  obtain rfl := eq_of_mem_scan (services.mem_scan_of_mem_resolved context text hf) ht hl
  have hanswered := (services.yields_of_command context text state (readable_of_mem_scan ht).2.1).mp hy
  rw [commandAnswers_of_disabled _ _ _ _ hd] at hanswered
  cases hanswered

/-- Where commands are disabled, a batch gives the same with any two executors. Neither their worlds
nor a transcript of what they are asked change. Each pass that does not fail reports a command
exactly once if its string holds one, and has no replacement for any. -/
theorem disabledCommands_uninvolved (context : Context) (hd : context.commandsDisabled = true) :
    (∀ inputs state other transcript,
      let engine := Engine.standard services
      let twin := Engine.standard (services.withExecutor execute)
      twin.expandEach context inputs other = ((engine.expandEach context inputs state).1, other) ∧
        ((Engine.standard services.recording).expandEach context inputs (transcript, state)).2 =
          (transcript, state) ∧
        ((Engine.standard (services.withExecutor execute).recording).expandEach context inputs
          (transcript, other)).2 = (transcript, other)) ∧
    ∀ text state,
      let resolved := resolveAll context (Engine.standard services).resolvers { input := text } state
      resolved.fault = none →
        resolved.pass.problems.countKind .commandsDisabled =
          (if scan text .command = [] then 0 else 1) ∧
        ∀ elsewhere, ∀ token ∈ scan elsewhere .command,
          resolved.pass.substitution.get? token.literal = none := by
  refine ⟨fun inputs state other transcript => ⟨?_, ?_, ?_⟩, ?_⟩
  · exact services.expandEach_withExecutor execute hd inputs state other
  · exact congrArg Prod.snd
      (services.expandEach_withExecutor services.execute.recording hd inputs state (transcript, state))
  · exact congrArg Prod.snd
      (services.expandEach_withExecutor execute.recording hd inputs state (transcript, other))
  · intro text state resolved hnone
    have hfault := (services.fault_resolveAll context text state).symm.trans hnone
    have hpass : resolved.pass = services.afterParts context text state Namespace.all := by
      rw [show resolved = _ from services.resolveAll_of_fault?_eq_none context text state hfault]
    rw [hpass]
    refine ⟨?_, fun elsewhere token ht => services.get?_afterParts_of_disabled hd text state ht⟩
    rw [← services.countKind_passProblems hd text state]
    exact congrArg (ProblemList.countKind · _) (services.problems_finished context text state)

/-- The name of the variable comes out of a variant and the command out of the variable. Only the
third pass sees the command, twice, and refuses it once. -/
theorem disabledCommands_uninvolved_counting :
    let context : Context :=
      { vars := .bind .bare "a".toList "$\x7bcommand:c\x7d".toList (by decide) (by decide)
        variants := some (Table.ofList [("v".toList, "$\x7ba\x7d".toList)])
        commandsDisabled := true }
    let input := "$\x7bvariant:v\x7d$\x7bvariant:v\x7d".toList
    let text := "$\x7bcommand:c\x7d$\x7bcommand:c\x7d".toList
    let twin := still.withExecutor counting.execute
    let resolved := resolveAll context (Engine.standard still).resolvers { input := text } ()
    (context.commandsDisabled = true ∧ resolved.fault = none) ∧
      (((Engine.standard twin).expandEach context [input, text] 5).1.map (·.problems) =
        [[⟨.commandsDisabled, "$\x7bcommand:c\x7d".toList⟩],
          [⟨.commandsDisabled, "$\x7bcommand:c\x7d".toList⟩]]) ∧
      ((Engine.standard twin.recording).expandEach context [input, text] ([], 5)).2 = ([], 5) ∧
      resolved.pass.problems.countKind .commandsDisabled = 1 ∧
      resolved.pass.substitution.get? "$\x7bcommand:c\x7d".toList = none := by
  intro context input text twin resolved
  have hnone : resolved.fault = none := by decide +kernel
  obtain ⟨hbatch, hpass⟩ := still.disabledCommands_uninvolved counting.execute context rfl
  obtain ⟨hsame, _, hlog⟩ := hbatch [input, text] () 5 []
  obtain ⟨hcount, hget⟩ := hpass text () hnone
  have hproblems : ((Engine.standard still).expandEach context [input, text] ()).1.map
      (·.problems) = [[⟨.commandsDisabled, "$\x7bcommand:c\x7d".toList⟩],
        [⟨.commandsDisabled, "$\x7bcommand:c\x7d".toList⟩]] := by
    decide +kernel
  have hscan : scan text .command = [⟨"$\x7bcommand:c\x7d".toList, .command, "c".toList⟩,
      ⟨"$\x7bcommand:c\x7d".toList, .command, "c".toList⟩] := by
    decide +kernel
  have hreplacement := hget text _ (hscan ▸ List.mem_cons_self)
  rw [hscan, if_neg (List.cons_ne_nil _ _)] at hcount
  rw [hsame, ← hproblems]
  dsimp only [resolved]
  exact ⟨⟨rfl, hnone⟩, rfl, hlog, hcount, hreplacement⟩

end Services
end Placeholders
