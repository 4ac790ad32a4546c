import Placeholders.Batch
import Placeholders.Resolver.Scripted
import Placeholders.Proofs.FailingLookups

/-! The commands of a batch. An executor that keeps a transcript beside its state tells which
commands were called and what they answered. It gets one call for each literal of each pass, and
every answer is either the replacement of its literal or a problem. -/

namespace Placeholders

structure Exchange where
  call : Scripted.Call
  answer : Except CommandError Text

def Executor.recording {σ : Type} (execute : Executor σ) : Executor (List Exchange × σ) :=
  fun name folder (transcript, state) =>
    let (answer, state) := execute name folder state
    (answer, (transcript ++ [⟨⟨name, folder⟩, answer⟩], state))

/-- What a pass keeps of an answer: the output is the replacement of the literal, or the failure is
recorded once. -/
def Pass.Keeps (pass : Pass) (literal : Text) : Except CommandError Text → Prop
  | .ok output => pass.substitution.get? literal = some output ∧
      pass.problems.count ⟨.commandExecutionFailed, literal⟩ = 0
  | .error _ => pass.substitution.get? literal = none ∧
      pass.problems.count ⟨.commandExecutionFailed, literal⟩ = 1

namespace Engine
variable {σ : Type} (engine : Engine σ) (context : Context)

def runEach : List Text → σ → List (Text × Run) × σ
  | [], state => ([], state)
  | input :: inputs, state =>
    let (run, state) := engine.run context input state
    let (rest, state) := runEach inputs state
    ((input, run) :: rest, state)

/-- A batch reports what is read off its runs. -/
private theorem expandEach_eq (inputs : List Text) (state : σ) :
    engine.expandEach context inputs state =
      ((engine.runEach context inputs state).1.map fun (input, run) =>
        ⟨run.outcome input, run.problems input⟩, (engine.runEach context inputs state).2) := by
  induction inputs generalizing state with
  | nil => rfl
  | cons input inputs ih => simp [expandEach, runEach, expand_eq, ih]

end Engine

namespace Services
variable {σ : Type} (services : Services σ) (context : Context)

def recording : Services (List Exchange × σ) := services.withExecutor services.execute.recording

/-- The calls that a pass over a text makes: one for each literal, by first occurrence. -/
def calls (context : Context) (text : Text) : List Scripted.Call :=
  (asked context text).map fun token => ⟨token.key, context.workspaceFolder⟩

private def exchanges (context : Context) (given : List (Token × Except CommandError Text)) :
    List Exchange :=
  given.map fun (token, answer) => ⟨⟨token.key, context.workspaceFolder⟩, answer⟩

private theorem answers_recording (tokens : List Token) (transcript : List Exchange) (state : σ) :
    answers services.execute.recording context.workspaceFolder tokens (transcript, state) =
      let given := answers services.execute context.workspaceFolder tokens state
      (given.1, (transcript ++ exchanges context given.1, given.2)) := by
  induction tokens generalizing transcript state with
  | nil => simp [answers, exchanges]
  | cons token tokens ih => simp [answers, Executor.recording, ih, exchanges]

theorem commandAnswers_recording (text : Text) (transcript : List Exchange) (state : σ) :
    services.recording.commandAnswers context text (transcript, state) =
      let given := services.commandAnswers context text state
      (given.1, (transcript ++ exchanges context given.1, given.2)) := by
  rw [commandAnswers_eq, commandAnswers_eq]
  exact services.answers_recording context (asked context text) transcript state

private theorem map_call_exchanges (text : Text) (state : σ) :
    (exchanges context (services.commandAnswers context text state).1).map (·.call) =
      calls context text := by
  rw [calls, ← map_fst_answers services.execute context.workspaceFolder (asked context text) state,
    commandAnswers_eq, exchanges, List.map_map, List.map_map]
  rfl

/-- A transcript changes nothing in a pass, and gets the calls of the pass. -/
private theorem pass_recording_of_ok {text : Text} {state after : σ} {pass : FinishedPass}
    (hp : (Engine.standard services).pass context text state = (.ok pass, after))
    (transcript : List Exchange) :
    ∃ added, (Engine.standard services.recording).pass context text (transcript, state) =
        (.ok pass, (transcript ++ added, after)) ∧
      added.map (·.call) = calls context pass.input := by
  obtain ⟨hf, rfl, rfl⟩ := (services.pass_eq_ok_iff context text state).mp hp
  have hanswers := services.commandAnswers_recording context text transcript state
  have hfinished : services.recording.finished context text (transcript, state) =
      services.finished context text state :=
    services.finished_withExecutor context text state (congrArg Prod.fst hanswers)
  refine ⟨exchanges context (services.commandAnswers context text state).1, ?_, ?_⟩
  · exact (services.recording.pass_eq_ok_iff context text _).mpr ⟨hf, hfinished, by rw [hanswers]⟩
  · rw [input_finished]
    exact services.map_call_exchanges context text state

/-- A pass that fails calls nothing. -/
private theorem pass_recording_of_error {text : Text} {state after : σ} {fault : Fault}
    (hp : (Engine.standard services).pass context text state = (.error fault, after))
    (transcript : List Exchange) :
    (Engine.standard services.recording).pass context text (transcript, state) =
      (.error fault, (transcript, after)) := by
  obtain ⟨hf, rfl⟩ := (services.pass_eq_error_iff_fault? context text state).mp hp
  exact (services.recording.pass_eq_error_iff_fault? context text _).mpr ⟨hf, rfl⟩

/-- The calls of a run are those of its passes. -/
private theorem runFrom_recording (more : Nat) (text : Text) (transcript : List Exchange)
    (state : σ) :
    ∃ added, (Engine.standard services.recording).runFrom context more text (transcript, state) =
        (((Engine.standard services).runFrom context more text state).1,
          (transcript ++ added, ((Engine.standard services).runFrom context more text state).2)) ∧
      added.map (·.call) =
        ((Engine.standard services).runFrom context more text state).1.passes.flatMap fun pass =>
          calls context pass.input := by
  fun_induction (Engine.standard services).runFrom context more text state
    generalizing transcript with
  | case1 more text state fault after hp =>
    have hrec := services.pass_recording_of_error context hp transcript
    exact ⟨[], by rw [Engine.runFrom, hrec, List.append_nil], rfl⟩
  | case2 more text state pass after hp token hcirc =>
    obtain ⟨added, hrec, hcalls⟩ := services.pass_recording_of_ok context hp transcript
    exact ⟨added, by simp [Engine.runFrom, hrec, hcirc], by simpa using hcalls⟩
  | case3 text state pass after hp hcirc =>
    obtain ⟨added, hrec, hcalls⟩ := services.pass_recording_of_ok context hp transcript
    exact ⟨added, by simp [Engine.runFrom, hrec, hcirc], by simpa using hcalls⟩
  | case4 text state pass after hp more hcirc hgo run last hrun ih =>
    obtain ⟨added, hrec, hcalls⟩ := services.pass_recording_of_ok context hp transcript
    obtain ⟨later, hnext, hlater⟩ := ih (transcript ++ added)
    obtain ⟨hrecursive, hchanged⟩ := Bool.and_eq_true_iff.mp hgo
    rw [hrun] at hnext hlater
    refine ⟨added ++ later, ?_, ?_⟩
    · rw [Engine.runFrom_of_continues hrec hcirc hrecursive hchanged, hnext, List.append_assoc]
    · rw [List.map_append, hcalls, hlater]
      rfl
  | case5 text state pass after hp more hcirc hstop =>
    obtain ⟨added, hrec, hcalls⟩ := services.pass_recording_of_ok context hp transcript
    exact ⟨added, by simp [Engine.runFrom, hrec, hcirc, hstop], by simpa using hcalls⟩

/-- The calls of a batch are those of its runs. -/
private theorem runEach_recording (inputs : List Text) (transcript : List Exchange) (state : σ) :
    ∃ added, (Engine.standard services.recording).runEach context inputs (transcript, state) =
        (((Engine.standard services).runEach context inputs state).1,
          (transcript ++ added, ((Engine.standard services).runEach context inputs state).2)) ∧
      added.map (·.call) = ((Engine.standard services).runEach context inputs state).1.flatMap
        fun run => run.2.passes.flatMap fun pass => calls context pass.input := by
  induction inputs generalizing transcript state with
  | nil => exact ⟨[], by simp [Engine.runEach], rfl⟩
  | cons input inputs ih =>
    obtain ⟨added, hrun, hcalls⟩ :=
      services.runFrom_recording context (maxPasses - 1) input transcript state
    obtain ⟨later, hrest, hlater⟩ :=
      ih (transcript ++ added) ((Engine.standard services).run context input state).2
    refine ⟨added ++ later, ?_, ?_⟩
    · rw [← Engine.run, ← Engine.run] at hrun
      simp [Engine.runEach, hrun, hrest]
    · rw [List.map_append, hcalls, hlater]
      rfl

private theorem count_unknown (vars : Variables) (tokens : List Token) (literal : Text) :
    (unknown vars.get? tokens).count ⟨.commandExecutionFailed, literal⟩ = 0 := by
  apply List.count_eq_zero_of_not_mem
  intro h
  cases kind_of_mem_unknown h

private theorem count_failed_of_forall_ne {given : List (Token × Except CommandError Text)}
    {literal : Text} (h : ∀ token ∈ given.map Prod.fst, token.literal ≠ literal) :
    (failed given).count ⟨.commandExecutionFailed, literal⟩ = 0 := by
  apply List.count_eq_zero_of_not_mem
  intro hm
  obtain ⟨⟨token, _ | output⟩, hg, he⟩ := List.mem_filterMap.mp hm
  · obtain ⟨_, hl⟩ := Problem.mk.inj (Option.some.inj he)
    exact h token (List.mem_map_of_mem hg) hl
  · cases he

/-- Where each literal is answered once, its problems are those of its answer. -/
private theorem count_failed {given : List (Token × Except CommandError Text)}
    (h : ((given.map Prod.fst).map Token.literal).Nodup) {token : Token}
    {answer : Except CommandError Text} (hm : (token, answer) ∈ given) :
    (failed given).count ⟨.commandExecutionFailed, token.literal⟩ =
      (failed [(token, answer)]).length := by
  induction given with
  | nil => cases hm
  | cons first given ih =>
    obtain ⟨head, reply⟩ := first
    rw [List.map_cons, List.map_cons, List.nodup_cons] at h
    obtain ⟨hhead, hrest⟩ := h
    rcases List.mem_cons.mp hm with he | hlater
    · obtain ⟨rfl, rfl⟩ := Prod.mk.inj he
      have hnone := @count_failed_of_forall_ne given token.literal fun other ho hl =>
        hhead (hl ▸ List.mem_map_of_mem ho)
      cases answer with
      | ok output => rw [failed_ok, hnone]; rfl
      | error reason => rw [failed_error, List.count_cons_self, hnone]; rfl
    · have hne : head.literal ≠ token.literal := fun hl =>
        hhead (hl ▸ List.mem_map_of_mem (List.mem_map_of_mem (f := Prod.fst) hlater))
      cases reply with
      | ok output => rw [failed_ok, ih hrest hlater]
      | error reason =>
        rw [failed_error, List.count_cons_of_ne (by simpa using hne), ih hrest hlater]

variable (text : Text) (state : σ)

/-- A pass keeps every answer of a command. -/
private theorem keeps_afterParts {token : Token} {answer : Except CommandError Text}
    (h : (token, answer) ∈ (services.commandAnswers context text state).1) :
    (services.afterParts context text state Namespace.all).Keeps token.literal answer := by
  have hs := services.mem_scan_of_mem_commandAnswers context text state h
  have hns : token.ns = .command := (readable_of_mem_scan hs).2.1
  obtain ⟨hd, _⟩ := services.exists_execute_of_mem_commandAnswers context text state h
  have hcount := count_failed (services.literals_commandAnswers_nodup context text state) h
  have hproblems : (services.afterParts context text state Namespace.all).problems.count
      ⟨.commandExecutionFailed, token.literal⟩ = _ :=
    (congrArg (List.count _) (services.problems_finished context text state)).trans
      (by rw [List.count_append, count_unknown, Nat.zero_add, commandProblems,
        if_neg (by simp [hd]), hcount])
  cases answer with
  | ok output =>
    refine ⟨(services.get?_afterParts context text state _).mpr ?_, hproblems⟩
    refine ⟨.command, Namespace.mem_all _, token, ?_, rfl, ?_⟩
    · rwa [resolved_eq_scan _ _ _ (by simp) (by simp)]
    · exact (services.yields_of_command context text state hns).mpr h
  | error reason =>
    refine ⟨Option.eq_none_iff_forall_ne_some.mpr fun value hv => ?_, hproblems⟩
    obtain ⟨ns, _, other, ho, hl, hy⟩ := (services.get?_afterParts context text state _).mp hv
    obtain rfl : other = token :=
      eq_of_mem_scan (services.mem_scan_of_mem_resolved context text ho) hs hl
    have hok := (services.yields_of_command context text state hns).mp hy
    have hnodup := services.commandAnswers_nodup context text state
    have hboth := List.inj_on_of_nodup_map hnodup h hok rfl
    cases (Prod.mk.inj hboth).2

/-- No pass calls a command twice. -/
private theorem names_calls_nodup : ((calls context text).map (·.name)).Nodup := by
  have hasked : ∀ token ∈ asked context text, token ∈ scan text .command := by
    intro token h
    rw [asked] at h
    split at h
    · cases h
    · exact (mem_of_mem_firstOccurrences h).1
  have hnodup : (asked context text).Nodup := by
    rw [asked]
    split
    · exact List.nodup_nil
    · exact (literals_firstOccurrences_nodup [] _).of_map
  rw [calls, List.map_map]
  -- the literals are distinct, and the name of a command tells its literal
  refine hnodup.map_on fun s hs t ht he => ?_
  obtain ⟨hsr, hsc, _⟩ := readable_of_mem_scan (hasked s hs)
  obtain ⟨htr, htc, _⟩ := readable_of_mem_scan (hasked t ht)
  exact hsr.eq_of_key_eq htr (hsc.trans htc.symm) (by simp [hsc]) he

/-- With commands enabled each command token of a text is called. -/
private theorem mem_calls (hd : context.commandsDisabled = false) {token : Token}
    (h : token ∈ scan text .command) :
    ⟨token.key, context.workspaceFolder⟩ ∈ calls context text := by
  obtain ⟨first, hf, hl⟩ := @exists_mem_firstOccurrences [] _ _ h List.not_mem_nil
  obtain rfl : first = token := eq_of_mem_scan (mem_of_mem_firstOccurrences hf).1 h hl
  refine List.mem_map.mpr ⟨first, ?_, rfl⟩
  rwa [asked, if_neg (by simp [hd])]

/-- A pass that does not fail adds its calls to the transcript and keeps all the answers. -/
private theorem resolveAll_recording (transcript : List Exchange)
    (hf : services.recording.fault? context text = none) :
    let resolved := resolveAll context (Engine.standard services.recording).resolvers
      { input := text } (transcript, state)
    ∃ added, resolved.state.1 = transcript ++ added ∧ added.map (·.call) = calls context text ∧
      ∀ exchange ∈ added, ∃ token ∈ scan text .command,
        exchange.call = ⟨token.key, context.workspaceFolder⟩ ∧
          resolved.pass.Keeps token.literal exchange.answer := by
  have hanswers := services.commandAnswers_recording context text transcript state
  rw [services.recording.resolveAll_of_fault?_eq_none context text (transcript, state) hf]
  refine ⟨exchanges context (services.commandAnswers context text state).1, by rw [hanswers],
    services.map_call_exchanges context text state, fun exchange hm => ?_⟩
  obtain ⟨⟨token, answer⟩, hgiven, rfl⟩ := List.mem_map.mp hm
  have hrecorded : (token, answer) ∈
      (services.recording.commandAnswers context text (transcript, state)).1 := by
    rwa [hanswers]
  exact ⟨token, services.mem_scan_of_mem_commandAnswers context text state hgiven, rfl,
    services.recording.keeps_afterParts context text (transcript, state) hrecorded⟩

/-- Over a batch, commands are called once for each literal of each pass, pass after pass and string
after string; passes that fail call none. Keeping a transcript changes nothing else. No pass calls a
command twice, whatever it answers, and each answer stays in its pass: an output as the replacement
of the literal, a failure as one problem, behind which the other commands are still called. -/
theorem expandEach_recording :
    (∀ inputs transcript state,
      let batch := (Engine.standard services).runEach context inputs state
      (Engine.standard services).expandEach context inputs state =
        (batch.1.map fun (input, run) => ⟨run.outcome input, run.problems input⟩, batch.2) ∧
      ∃ added, (Engine.standard services.recording).runEach context inputs (transcript, state) =
          (batch.1, (transcript ++ added, batch.2)) ∧
        added.map (·.call) =
          batch.1.flatMap fun (_, run) => run.passes.flatMap fun pass => calls context pass.input) ∧
    (∀ text, ((calls context text).map (·.name)).Nodup ∧
      (context.commandsDisabled = false → ∀ token ∈ scan text .command,
        ⟨token.key, context.workspaceFolder⟩ ∈ calls context text)) ∧
    ∀ text transcript state,
      let resolved := resolveAll context (Engine.standard services.recording).resolvers
        { input := text } (transcript, state)
      resolved.fault = none →
        ∃ added, resolved.state.1 = transcript ++ added ∧
          added.map (·.call) = calls context text ∧
          ∀ exchange ∈ added, ∃ token ∈ scan text .command,
            exchange.call = ⟨token.key, context.workspaceFolder⟩ ∧
              resolved.pass.Keeps token.literal exchange.answer := by
  refine ⟨fun inputs transcript state => ?_,
    fun text => ⟨names_calls_nodup context text, fun hd _ => mem_calls context text hd⟩, ?_⟩
  · exact ⟨Engine.expandEach_eq _ context inputs state,
      services.runEach_recording context inputs transcript state⟩
  · intro text transcript state resolved hnone
    refine services.resolveAll_recording context text state transcript ?_
    rw [Option.eq_none_iff_forall_ne_some]
    intro fault hfault
    obtain ⟨hsome, _⟩ :=
      services.recording.resolveAll_of_fault context text (transcript, state) hfault
    rw [show resolved.fault = some fault from hsome] at hnone
    cases hnone

/-- Two commands fail in the first pass over a text, one of them where it stands twice, and the one
that the next text asks as well is called again. -/
theorem expandEach_recording_counting :
    let context : Context := { vars := .bare }
    let text := "$\x7bcommand:a\x7d$\x7bcommand:b\x7d$\x7bcommand:a\x7d".toList
    let other := "$\x7bcommand:b\x7d".toList
    let resolved := resolveAll context (Engine.standard counting.recording).resolvers
      { input := text } ([], 0)
    (context.commandsDisabled = false ∧ resolved.fault = none) ∧
      (∃ added, ((Engine.standard counting.recording).runEach context [text, other] ([], 0)).2 =
          (added, 3) ∧ added.map (·.call.name) = ["a".toList, "b".toList, "b".toList]) ∧
      ∃ added, resolved.state.1 = added ∧ added.map (·.call.name) = ["a".toList, "b".toList] ∧
        ∀ exchange ∈ added, ∃ token ∈ scan text .command,
          exchange.call = ⟨token.key, context.workspaceFolder⟩ ∧
            resolved.pass.Keeps token.literal exchange.answer := by
  intro context text other resolved
  obtain ⟨hbatch, _, hpass⟩ := counting.expandEach_recording context
  have hnone : resolved.fault = none := by decide +kernel
  refine ⟨⟨rfl, hnone⟩, ?_, ?_⟩
  · obtain ⟨_, added, hrun, hcalls⟩ := hbatch [text, other] [] 0
    have hnames : (((Engine.standard counting).runEach context [text, other] 0).1.flatMap
        fun (_, run) => run.passes.flatMap fun pass => calls context pass.input).map (·.name) =
          ["a".toList, "b".toList, "b".toList] := by decide +kernel
    have hstate : ((Engine.standard counting).runEach context [text, other] 0).2 = 3 := by
      decide +kernel
    refine ⟨added, by rw [hrun, hstate, List.nil_append], ?_⟩
    rw [← hnames, ← hcalls, List.map_map]
    rfl
  · obtain ⟨added, hstate, hcalls, hkeeps⟩ := hpass text [] 0 hnone
    have hnames : (calls context text).map (·.name) = ["a".toList, "b".toList] := by
      decide +kernel
    dsimp only [resolved]
    refine ⟨added, by rw [hstate, List.nil_append], ?_, hkeeps⟩
    rw [← hnames, ← hcalls, List.map_map]
    rfl

end Services
end Placeholders
