import Placeholders.Proofs.PassStarts

/-! Inert text around a string. If no placeholder can begin in the text in front and none can end in
the text behind, each pass finds, asks and replaces the same with the text as without it, so an
expansion carries the text along unchanged. -/

namespace Placeholders

/-- What ends with an element that stands nowhere behind a list ends in the list. -/
private theorem concat_prefix_append_iff {α : Type} {start front back : List α} {last : α}
    (h : last ∉ back) : start ++ [last] <+: front ++ back ↔ start ++ [last] <+: front := by
  constructor
  · intro hp
    refine (concat_prefix_append_cases hp).resolve_right ?_
    rintro ⟨before, _, hback⟩
    exact h (hback.subset (by simp))
  · exact fun hp => hp.trans (List.prefix_append front back)

/-- Text in front of a string and behind it. No placeholder begins in front, as each begins with a
dollar sign; none ends behind, as each ends with a brace. -/
structure Frame where
  front : Text
  back : Text
  undollared : '$' ∉ front
  unbraced : '}' ∉ back

def Frame.around (frame : Frame) (text : Text) : Text := frame.front ++ text ++ frame.back

namespace Grammar
variable {g : Grammar} {back : Text}

theorem key?_append_back (h : '}' ∉ back) (text : Text) : g.key? (text ++ back) = g.key? text := by
  apply Option.ext
  intro key
  rw [key?_eq_some_iff, key?_eq_some_iff, literal, concat_prefix_append_iff h]

theorem keysFrom_append_back (h : '}' ∉ back) {skip : Nat} {text : Text}
    (hs : skip ≤ text.length) : g.keysFrom skip (text ++ back) = g.keysFrom skip text := by
  have hnone : g.keysFrom 0 back = [] := by
    rw [List.eq_nil_iff_forall_not_mem]
    intro key hk
    exact h ((of_mem_keysFrom 0 hk).2.subset (by simp [literal]))
  rw [keysFrom_append_of_key? hs fun part _ _ => key?_append_back h part, hnone, List.append_nil]

end Grammar

/-- A scan does not notice a frame. -/
@[simp] theorem Frame.scan_around (frame : Frame) (text : Text) (ns : Namespace) :
    scan (frame.around text) ns = scan text ns := by
  apply List.flatMap_congr
  intro g hg
  rw [Grammar.scan, around, List.append_assoc,
    Grammar.keysFrom_append (List.mem_of_mem_filter hg) frame.undollared,
    Grammar.keysFrom_append_back frame.unbraced (Nat.zero_le _), Grammar.scan]

namespace Substitution
variable {bindings : List (Text × Text)} {back : Text}

theorem longestAt_append_back (hb : LiteralsOnly bindings) (h : '}' ∉ back) (text : Text) :
    longestAt bindings (text ++ back) = longestAt bindings text := by
  apply longestAt_congr
  intro binding hm
  obtain ⟨g, _, key, _, he⟩ := hb binding hm
  rw [Bool.eq_iff_iff, applies_iff, applies_iff, he, Grammar.literal, concat_prefix_append_iff h]

theorem sweepFrom_append_back (hb : LiteralsOnly bindings) (h : '}' ∉ back) {skip : Nat}
    {text : Text} (hs : skip ≤ text.length) :
    sweepFrom bindings skip (text ++ back) = sweepFrom bindings skip text ++ back := by
  have hback : sweep bindings back = back := by
    apply sweep_eq_self
    intro binding hm hi
    obtain ⟨g, _, key, _, he⟩ := hb binding hm
    exact h (hi.subset (by simp [he, Grammar.literal]))
  rw [sweepFrom_append_of_longestAt hs fun part _ _ => longestAt_append_back hb h part, hback]

/-- A sweep leaves a frame where it is. -/
theorem sweep_around (hb : LiteralsOnly bindings) (frame : Frame) (text : Text) :
    sweep bindings (frame.around text) = frame.around (sweep bindings text) := by
  rw [Frame.around, List.append_assoc, sweep_append hb frame.undollared, sweep,
    sweepFrom_append_back hb frame.unbraced (Nat.zero_le _), Frame.around, List.append_assoc, sweep]

theorem unescape_around (frame : Frame) (text : Text) :
    unescape (frame.around text) = frame.around (unescape text) :=
  sweep_around (literalsOnly_escape _) frame text

theorem changed_apply (s : Substitution) (text other : Text) :
    (s.apply text).changed = (s.apply other).changed := by
  rw [Bool.eq_iff_iff, ← not_iff_not, Bool.not_eq_true, Bool.not_eq_true,
    changed_apply_eq_false_iff, changed_apply_eq_false_iff]

end Substitution

def FinishedPass.within (frame : Frame) (pass : FinishedPass) : FinishedPass :=
  { pass with input := frame.around pass.input, result := frame.around pass.result }

@[simp] theorem FinishedPass.circular_within (frame : Frame) (pass : FinishedPass) :
    (pass.within frame).circular = pass.circular := rfl

@[simp] theorem FinishedPass.changed_within (frame : Frame) (pass : FinishedPass) :
    (pass.within frame).changed = pass.changed := rfl

@[simp] theorem FinishedPass.result_within (frame : Frame) (pass : FinishedPass) :
    (pass.within frame).result = frame.around pass.result := rfl

/-- A problem as it is when the string `input` stands in a frame. Two kinds of problems tell the
string: one the text at which the passes ended, the other the string that could not be expanded. -/
def Problem.within (frame : Frame) (input : Text) (problem : Problem) : Problem :=
  match problem.kind with
  | .maxRecursionReached => { problem with detail := frame.around problem.detail }
  | .unexpectedFault =>
    { problem with detail := frame.around input ++ problem.detail.drop input.length }
  | _ => problem

namespace Run

def within (frame : Frame) (run : Run) : Run :=
  { run with passes := run.passes.map (FinishedPass.within frame) }

theorem within_cons (frame : Frame) (pass : FinishedPass) (run : Run) :
    (run.cons pass).within frame = (run.within frame).cons (pass.within frame) := rfl

variable (frame : Frame) (run : Run) (input : Text)

theorem text_within :
    (run.within frame).text (frame.around input) = frame.around (run.text input) := by
  simp only [text, within, List.getLast?_map]
  cases run.passes.getLast? <;> rfl

theorem changed_within : (run.within frame).changed = run.changed := by
  simp only [changed, within, List.any_map]
  rfl

/-- The outcome tells the same but for the strings. -/
theorem outcome_within :
    (run.within frame).outcome (frame.around input) =
      { run.outcome input with
        result := frame.around (run.outcome input).result
        circular := (run.outcome input).circular.map fun c =>
          { c with input := frame.around input } } := by
  have htext := text_within frame run input
  have hchanged := changed_within frame run
  obtain ⟨passes, ending⟩ := run
  cases ending with
  | faulted fault => rfl
  | _ =>
    simp only [outcome, outcome?, within] at htext hchanged ⊢
    simp [htext, hchanged, Substitution.unescape_around]

theorem endProblems_within :
    (run.within frame).endProblems (frame.around input) =
      (run.endProblems input).map (Problem.within frame input) := by
  have htext := text_within frame run input
  obtain ⟨passes, ending⟩ := run
  cases ending with
  | faulted fault =>
    simp [endProblems, within, Problem.within, List.append_assoc]
  | capped =>
    simp only [endProblems, within] at htext ⊢
    simp [htext, Problem.within]
  | _ => rfl

theorem passProblems_within : (run.within frame).passProblems = run.passProblems := by
  simp only [passProblems, within, List.flatMap_map]
  rfl

end Run

namespace Services
variable {σ : Type} (services : Services σ) (context : Context) (frame : Frame) (text : Text)
  (state : σ)

private theorem fault?_around :
    services.fault? context (frame.around text) = services.fault? context text := by
  simp only [fault?, faultIn?, stop?, Frame.scan_around]

private theorem flagged?_around :
    services.flagged? context (frame.around text) = services.flagged? context text := by
  simp only [flagged?, stop?, Frame.scan_around]

private theorem commandAnswers_around :
    services.commandAnswers context (frame.around text) state =
      services.commandAnswers context text state := by
  simp only [commandAnswers, Frame.scan_around]

/-- Each resolver adds the same to a pass. -/
private theorem part_around :
    services.part context (frame.around text) state = services.part context text state := by
  funext ns
  cases ns <;>
    simp only [part, resolved, commandProblems, Frame.scan_around, flagged?_around,
      commandAnswers_around]

private theorem afterParts_around (namespaces : List Namespace) :
    services.afterParts context (frame.around text) state namespaces =
      { services.afterParts context text state namespaces with input := frame.around text } := by
  simp only [afterParts_eq, part_around, flagged?_around]

theorem finished_around :
    services.finished context (frame.around text) state =
      (services.finished context text state).within frame := by
  have hb := services.literalsOnly_afterParts context text state Namespace.all
  simp only [finished, Pass.finish, FinishedPass.within, afterParts_around, input_afterParts,
    Substitution.result_apply, Substitution.sweep_around hb]
  rw [Substitution.changed_apply _ _ text]

/-- A pass does to the string what it does without the frame. -/
theorem pass_around :
    (Engine.standard services).pass context (frame.around text) state =
      (((Engine.standard services).pass context text state).1.map (FinishedPass.within frame),
        ((Engine.standard services).pass context text state).2) := by
  have hsame := services.fault?_around context frame text
  cases hf : services.fault? context text with
  | some fault =>
    rw [services.pass_of_fault context text state hf,
      services.pass_of_fault context _ state (hsame.trans hf)]
    rfl
  | none =>
    rw [services.pass_of_fault?_eq_none context text state hf,
      services.pass_of_fault?_eq_none context _ state (hsame.trans hf), finished_around,
      commandAnswers_around]
    rfl

/-- A run does to its string what it does without the frame. -/
theorem runFrom_around (more : Nat) :
    (Engine.standard services).runFrom context more (frame.around text) state =
      (((Engine.standard services).runFrom context more text state).1.within frame,
        ((Engine.standard services).runFrom context more text state).2) := by
  fun_induction (Engine.standard services).runFrom context more text state with
  | case1 more text state fault after hp =>
    rw [Engine.runFrom, pass_around, hp]
    rfl
  | case2 more text state pass after hp token hcirc =>
    rw [Engine.runFrom, pass_around, hp]
    simp [Except.map, Run.within, hcirc]
  | case3 text state pass after hp hcirc =>
    rw [Engine.runFrom, pass_around, hp]
    simp [Except.map, Run.within, hcirc]
  | case4 text state pass after hp more hcirc hgo run last hrun ih =>
    rw [Engine.runFrom, pass_around, hp]
    simp [Except.map, hcirc, hgo, ih, hrun, Run.within_cons]
  | case5 text state pass after hp more hcirc hstop =>
    rw [Engine.runFrom, pass_around, hp]
    simp [Except.map, Run.within, hcirc, hstop]

/-- No pass tells the string in a problem. -/
private theorem map_within_passProblems :
    ((Engine.standard services).run context text state).1.passProblems.map
        (Problem.within frame text) =
      ((Engine.standard services).run context text state).1.passProblems := by
  refine (List.map_congr_left (g := id) fun problem h => ?_).trans (List.map_id _)
  obtain ⟨pass, hp, hm⟩ := List.mem_flatMap.mp h
  obtain ⟨_, other, before, _, _, rfl⟩ := exists_finished_of_mem_passes hp
  rw [problems_finished] at hm
  rcases services.kind_of_mem_passProblems context hm with hk | hk | hk <;>
    simp [Problem.within, hk]

/-- An expansion carries a frame along. The outcome tells the same as without it, but for the
strings; so do the problems, in the same order; and the world ends up the same, with all that it
keeps of the commands called. -/
theorem expand_around :
    (Engine.standard services).expand context (frame.around text) state =
      let expanded := (Engine.standard services).expand context text state
      (⟨{ result := frame.around expanded.1.outcome.result
          changed := expanded.1.outcome.changed
          circular := expanded.1.outcome.circular.map fun c =>
            ⟨c.key, c.token, frame.around text⟩
          status := expanded.1.outcome.status
          passes := expanded.1.outcome.passes },
        expanded.1.problems.map (Problem.within frame text)⟩, expanded.2) := by
  have hrun := services.runFrom_around context frame text state (maxPasses - 1)
  have hproblems := services.map_within_passProblems context frame text state
  simp only [Engine.run] at hproblems
  simp only [Engine.expand_eq, Engine.run, hrun, Run.outcome_within, Run.problems,
    Run.passProblems_within, Run.endProblems_within, List.map_append, hproblems]

end Services

/-- In front stands all of a placeholder but its dollar sign, behind it all but the last brace. -/
def Frame.unclosed : Frame where
  front := "\x7bvariant:v\x7d".toList
  back := "$\x7bvariant:v".toList
  undollared := by decide
  unbraced := by decide

/-- Only the placeholder within the frame is replaced, in each of ten passes. -/
theorem Services.expand_around_unclosed :
    ((Engine.standard still).expand .growing
        (Frame.unclosed.around "$\x7bvariant:v\x7d".toList) ()).1 =
      { outcome :=
          { result := "\x7bvariant:v\x7dxxxxxxxxxx$\x7bvariant:v\x7d$\x7bvariant:v".toList
            changed := true
            status := .maxRecursionReached
            passes := 10 }
        problems := [⟨.maxRecursionReached,
          "\x7bvariant:v\x7dxxxxxxxxxx$\x7bvariant:v\x7d$\x7bvariant:v".toList⟩] } := by
  rw [expand_around]
  decide +kernel

end Placeholders
