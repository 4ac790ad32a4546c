import Placeholders.Resolver.Scripted
import Placeholders.Proofs.FailingLookups
import Placeholders.Proofs.FixpointIdempotence
import Placeholders.Proofs.PairedRuns

/-! The entry points for many strings. All of them give what separate calls would give, one after
another. Where nothing that an engine asks remembers what it was asked before, not even the order of
the strings counts: what becomes of a string is told by the string alone. -/

namespace Placeholders

theorem deliver_eq (expansions : List Expansion) (sink : Option ProblemList) :
    deliver expansions sink =
      (expansions.map (·.outcome), sink.map (· ++ expansions.flatMap (·.problems))) := by
  induction expansions generalizing sink with
  | nil => simp [deliver]
  | cons expansion expansions ih =>
    simp [deliver, ih, Option.map_map, Function.comp_def]

/-- A resolver does not remember: what it does to a pass is the same whatever has happened before. -/
def Resolver.Steady {σ : Type} (resolver : Resolver σ) : Prop :=
  ∀ context pass before after,
    (resolver.resolve context pass before).pass = (resolver.resolve context pass after).pass ∧
      (resolver.resolve context pass before).fault = (resolver.resolve context pass after).fault

private theorem runCommands_of_steady {σ : Type} {execute : Executor σ} (h : execute.Steady)
    (folder : Text) (attempted : List Text) (tokens : List Token) (pass : Pass)
    (before after : σ) :
    (runCommands execute folder attempted tokens pass before).1 =
      (runCommands execute folder attempted tokens pass after).1 := by
  induction tokens generalizing attempted pass before after with
  | nil => rfl
  | cons token tokens ih =>
    simp only [runCommands]
    split
    · exact ih attempted pass before after
    · have hanswer := h token.key folder before after
      rcases hb : execute token.key folder before with ⟨answer, between⟩
      rcases ha : execute token.key folder after with ⟨again, later⟩
      rw [hb, ha] at hanswer
      obtain rfl : answer = again := hanswer
      cases answer with
      | ok output => exact ih _ _ between later
      | error reason => exact ih _ _ between later

/-- Of the six built-in resolvers only that of the commands asks something that could remember. -/
theorem Services.steady_resolver {σ : Type} {services : Services σ} (h : services.execute.Steady)
    (ns : Namespace) : (services.resolver ns).Steady := by
  intro context pass before after
  cases ns with
  | command =>
    simp only [resolver, commandResolver]
    split
    · exact ⟨rfl, rfl⟩
    · exact ⟨runCommands_of_steady h _ [] _ pass before after, rfl⟩
  | _ => exact ⟨rfl, rfl⟩

private theorem resolveAll_of_steady {σ : Type} {resolvers : List (Resolver σ)}
    (h : ∀ resolver ∈ resolvers, resolver.Steady) (context : Context) (pass : Pass)
    (before after : σ) :
    (resolveAll context resolvers pass before).pass = (resolveAll context resolvers pass after).pass ∧
      (resolveAll context resolvers pass before).fault =
        (resolveAll context resolvers pass after).fault := by
  induction resolvers generalizing pass before after with
  | nil => exact ⟨rfl, rfl⟩
  | cons resolver resolvers ih =>
    obtain ⟨hfirst, hrest⟩ := List.forall_mem_cons.mp h
    obtain ⟨hpass, hfault⟩ := hfirst context pass before after
    simp only [resolveAll, hpass, hfault]
    cases (resolver.resolve context pass after).fault with
    | some fault => exact ⟨hpass, hfault⟩
    | none => exact ih hrest _ _ _

namespace Engine
variable {σ : Type} (engine : Engine σ) (context : Context)

/-- Separate calls for strings, one after another, each with an empty list for the problems. -/
def callEach (inputs : List Text) (state : σ) : List Expansion × σ :=
  (inputs.mapM (m := StateM σ) fun input state =>
    let ((outcome, sink), state) := engine.expandInto context input (some []) state
    (⟨outcome, sink.getD []⟩, state)) state

@[simp] theorem callEach_nil (state : σ) : engine.callEach context [] state = ([], state) := rfl

@[simp] theorem callEach_cons (input : Text) (inputs : List Text) (state : σ) :
    engine.callEach context (input :: inputs) state =
      ((engine.expand context input state).1 ::
          (engine.callEach context inputs (engine.expand context input state).2).1,
        (engine.callEach context inputs (engine.expand context input state).2).2) := by
  simp only [callEach, List.mapM_cons, expandInto]
  rfl

theorem callEach_eq_expandEach (inputs : List Text) (state : σ) :
    engine.callEach context inputs state = engine.expandEach context inputs state := by
  induction inputs generalizing state with
  | nil => rfl
  | cons input inputs ih => rw [callEach_cons, ih]; rfl

theorem expandOutcomes_eq (inputs : List Text) (sink : Option ProblemList) (state : σ) :
    engine.expandOutcomes context inputs sink state =
      (((engine.expandEach context inputs state).1.map (·.outcome),
        sink.map (· ++ (engine.expandEach context inputs state).1.flatMap (·.problems))),
        (engine.expandEach context inputs state).2) := by
  simp only [expandOutcomes, deliver_eq]

theorem expandStrings_eq (inputs : List Text) (sink : Option ProblemList) (state : σ) :
    engine.expandStrings context inputs sink state =
      (((engine.expandEach context inputs state).1.map (·.outcome.result),
        sink.map (· ++ (engine.expandEach context inputs state).1.flatMap (·.problems))),
        (engine.expandEach context inputs state).2) := by
  simp only [expandStrings, expandOutcomes_eq, List.map_map]
  rfl

theorem resolvers_foldl_append (added : List (Resolver σ)) :
    (added.foldl append engine).resolvers = engine.resolvers ++ added := by
  induction added generalizing engine with
  | nil => simp
  | cons resolver added ih => simp [ih, append]

variable {engine}

/-- A pass by resolvers that do not remember is the same at any time. -/
theorem agree_of_steady (h : ∀ resolver ∈ engine.resolvers, resolver.Steady) (text : Text) :
    engine.Agree engine context context (fun _ _ => True) text := by
  intro before beside _
  obtain ⟨hpass, hfault⟩ := resolveAll_of_steady h context { input := text } beside before
  simp only [pass, hpass, hfault]
  cases (resolveAll context engine.resolvers { input := text } before).fault with
  | some fault => exact ⟨_, rfl, trivial⟩
  | none => exact ⟨_, rfl, trivial⟩

/-- Without memory each string of a batch is expanded as it would be alone, at any other time. -/
theorem expandEach_of_steady (h : ∀ resolver ∈ engine.resolvers, resolver.Steady)
    (inputs : List Text) (state other : σ) :
    (engine.expandEach context inputs state).1 =
      inputs.map fun input => (engine.expand context input other).1 := by
  induction inputs generalizing state with
  | nil => rfl
  | cons input inputs ih =>
    have hfirst : ∃ behind, engine.expand context input other =
        ((engine.expand context input state).1, behind) ∧ True :=
      expand_of_agree rfl (fun _ text _ _ => agree_of_steady context h text) trivial
    obtain ⟨_, hfirst, _⟩ := hfirst
    simp [expandEach, ih, hfirst]

end Engine

namespace Services
variable {σ : Type}

/-- Whichever resolvers are added to the six, all entry points for many strings report what separate
calls would report: the outcomes, the expanded strings and the lists of problems in the order of the
strings, and the problems one list after another behind those that the caller has. If neither the
commands nor the added resolvers remember anything, each string is expanded as if it were alone. -/
theorem entryPoints_agree (services : Services σ) (added : List (Resolver σ)) (context : Context) :
    let engine := added.foldl Engine.append (Engine.standard services)
    (∀ inputs state,
      let calls := engine.callEach context inputs state
      calls.1.length = inputs.length ∧
      engine.expandEach context inputs state = calls ∧
      (∀ sink, engine.expandOutcomes context inputs sink state =
        ((calls.1.map (·.outcome), sink.map (· ++ calls.1.flatMap (·.problems))), calls.2)) ∧
      (∀ sink, engine.expandStrings context inputs sink state =
        ((calls.1.map (·.outcome.result), sink.map (· ++ calls.1.flatMap (·.problems))), calls.2)) ∧
      ∃ batch, engine.expandBatch context inputs state = (batch, calls.2) ∧
        batch.outcomes = calls.1.map (·.outcome) ∧
        batch.stringProblems = calls.1.map (·.problems) ∧
        batch.results = batch.outcomes.map (·.result) ∧
        batch.problems = batch.stringProblems.flatten ∧
        batch.incompleteCount = (batch.outcomes.filter (·.status ≠ .complete)).length) ∧
    (services.execute.Steady → (∀ resolver ∈ added, resolver.Steady) →
      ∀ inputs state other, (engine.expandEach context inputs state).1 =
        inputs.map fun input => (engine.expand context input other).1) := by
  intro engine
  refine ⟨fun inputs state => ?_, fun hexecute hadded inputs state other => ?_⟩
  · dsimp only
    rw [engine.callEach_eq_expandEach context inputs state]
    refine ⟨engine.length_expandEach context inputs state, rfl,
      fun sink => engine.expandOutcomes_eq context inputs sink state,
      fun sink => engine.expandStrings_eq context inputs sink state, ?_⟩
    refine ⟨⟨(engine.expandEach context inputs state).1⟩, rfl, rfl, rfl, ?_, rfl, ?_⟩
    · rw [Batch.results, Batch.outcomes, List.map_map]
      rfl
    · rw [Batch.incompleteCount, List.countP_eq_length_filter]
      simp [Outcome.isComplete]
  · refine Engine.expandEach_of_steady context (fun resolver hm => ?_) inputs state other
    rw [Engine.resolvers_foldl_append, resolvers_standard] at hm
    rcases List.mem_append.mp hm with hbuiltin | hm
    · obtain ⟨ns, _, rfl⟩ := List.mem_map.mp hbuiltin
      exact steady_resolver hexecute ns
    · exact hadded resolver hm

/-- A fault, a variable that names itself, an endless chain and an added resolver in one batch: what
becomes of each string does not depend on the others, nor on the calls counted before. -/
theorem entryPoints_agree_counting :
    let added := [Scripted.resolver "at".toList [⟨"@".toList, .substitute "@".toList "at".toList⟩]]
    let engine := added.foldl Engine.append (Engine.standard counting)
    let context : Context :=
      { vars := .bind .bare "a".toList "$\x7ba\x7d.".toList (by decide) (by decide)
        environmentOverride := some (Table.ofList [("L".toList, some "$\x7benv:L\x7d".toList)]) }
    let inputs := ["$penv\x7bBAD\x7d".toList, "$env\x7bL\x7d".toList, "$\x7ba\x7d".toList,
      "$\x7bcommand:c\x7d@".toList]
    (counting.execute.Steady ∧ ∀ resolver ∈ added, resolver.Steady) ∧
      (engine.expandOutcomes context inputs none 0).1.1.map (·.status) =
        [.faulted, .circularReference, .maxRecursionReached, .complete] ∧
      (engine.expandEach context inputs 0).1 =
        inputs.map fun input => (engine.expand context input 7).1 := by
  intro added engine context inputs
  have hexecute : counting.execute.Steady := fun _ _ _ _ => rfl
  have hadded : ∀ resolver ∈ added, resolver.Steady := by
    intro resolver hm
    obtain rfl := List.mem_singleton.mp hm
    exact fun _ _ _ _ => ⟨rfl, rfl⟩
  obtain ⟨hentries, halone⟩ := entryPoints_agree counting added context
  obtain ⟨_, _, houtcomes, _⟩ := hentries inputs 0
  have hstatus : (engine.callEach context inputs 0).1.map (·.outcome.status) =
      [.faulted, .circularReference, .maxRecursionReached, .complete] := by
    decide +kernel
  refine ⟨⟨hexecute, hadded⟩, ?_, halone hexecute hadded inputs 0 7⟩
  rw [← hstatus, houtcomes none, List.map_map]
  rfl

end Services
end Placeholders
