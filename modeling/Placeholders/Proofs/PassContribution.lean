import Placeholders.Engine.Basic
import Placeholders.Proofs.RecordedReplacements

/-! What each resolver of the six namespaces adds to a pass, as data: the entries it records, the
token it flags and the problems it reports. Every resolver equals the recording of its
contribution, whatever the pass held before. -/

namespace Placeholders

structure Contribution where
  entries : List (Text × Text) := []
  circular : Option Token := none
  problems : ProblemList := []

namespace Contribution

/-- One contribution after another; the token flagged last counts. -/
def append (first second : Contribution) : Contribution where
  entries := first.entries ++ second.entries
  circular := second.circular.or first.circular
  problems := first.problems ++ second.problems

instance : Append Contribution := ⟨append⟩

@[simp] theorem mk_append_mk (e f : List (Text × Text)) (c d : Option Token) (p q : ProblemList) :
    (⟨e, c, p⟩ : Contribution) ++ ⟨f, d, q⟩ = ⟨e ++ f, d.or c, p ++ q⟩ := rfl

@[simp] theorem entries_append (c d : Contribution) : (c ++ d).entries = c.entries ++ d.entries :=
  rfl

@[simp] theorem circular_append (c d : Contribution) :
    (c ++ d).circular = d.circular.or c.circular := rfl

@[simp] theorem problems_append (c d : Contribution) :
    (c ++ d).problems = c.problems ++ d.problems := rfl

end Contribution

namespace Pass

def absorb (pass : Pass) (c : Contribution) : Pass where
  input := pass.input
  substitution := Substitution.recordAll pass.substitution c.entries
  circular := c.circular.or pass.circular
  problems := pass.problems ++ c.problems

theorem absorb_absorb (pass : Pass) (c d : Contribution) :
    (pass.absorb c).absorb d = pass.absorb (c ++ d) := by
  simp [absorb, Substitution.recordAll_append, Option.or_assoc]

@[simp] theorem absorb_empty (pass : Pass) : pass.absorb {} = pass := by
  simp [absorb]

theorem substitute_eq_absorb (pass : Pass) (literal replacement : Text) :
    pass.substitute literal replacement = pass.absorb { entries := [(literal, replacement)] } := by
  simp [substitute, absorb]

theorem report_eq_absorb (pass : Pass) (kind : ProblemKind) (detail : Text) :
    pass.report kind detail = pass.absorb { problems := [⟨kind, detail⟩] } := by
  simp [report, absorb, ProblemList.push]

theorem flagCircular_eq_absorb (pass : Pass) (token : Token) :
    pass.flagCircular token = pass.absorb { circular := some token } := by
  simp [flagCircular, absorb]

end Pass

def recorded (value? : Text → Option Text) (tokens : List Token) : List (Text × Text) :=
  tokens.filterMap fun token => (value? token.key).map fun value => (token.literal, value)

theorem recorded_congr {before after : Text → Option Text} {tokens : List Token}
    (h : ∀ token ∈ tokens, after token.key = before token.key) :
    recorded after tokens = recorded before tokens :=
  List.filterMap_congr fun token ht => by rw [h token ht]

theorem mem_recorded {value? : Text → Option Text} {tokens : List Token} {literal value : Text} :
    (literal, value) ∈ recorded value? tokens ↔
      ∃ token ∈ tokens, token.literal = literal ∧ value? token.key = some value := by
  simp only [recorded, List.mem_filterMap, Option.map_eq_some_iff, Prod.mk.injEq]
  constructor
  · rintro ⟨token, ht, v, hv, hl, rfl⟩
    exact ⟨token, ht, hl, hv⟩
  · rintro ⟨token, ht, hl, hv⟩
    exact ⟨token, ht, value, hv, hl, rfl⟩

def unknown (value? : Text → Option Text) (tokens : List Token) : ProblemList :=
  tokens.filterMap fun token =>
    if (value? token.key).isNone then some ⟨.invalidReference, token.literal⟩ else none

theorem unknown_congr {before after : Text → Option Text} {tokens : List Token}
    (h : ∀ token ∈ tokens, after token.key = before token.key) :
    unknown after tokens = unknown before tokens :=
  List.filterMap_congr fun token ht => by rw [h token ht]

theorem kind_of_mem_unknown {value? : Text → Option Text} {tokens : List Token} {problem : Problem}
    (h : problem ∈ unknown value? tokens) : problem.kind = .invalidReference := by
  obtain ⟨token, _, he⟩ := List.mem_filterMap.mp h
  split at he
  · exact Option.some.inj he ▸ rfl
  · cases he

private theorem foldl_eq_absorb {step : Pass → Token → Pass} (entry : Token → Option (Text × Text))
    (problem : Token → Option Problem)
    (h : ∀ pass token, step pass token =
      pass.absorb { entries := (entry token).toList, problems := (problem token).toList })
    (tokens : List Token) (pass : Pass) :
    tokens.foldl step pass =
      pass.absorb { entries := tokens.filterMap entry, problems := tokens.filterMap problem } := by
  induction tokens generalizing pass with
  | nil => simp
  | cons token tokens ih =>
    rw [List.foldl_cons, ih, h, Pass.absorb_absorb]
    cases he : entry token <;> cases hp : problem token <;> simp [he, hp]

private theorem foldl_eq_recorded {step : Pass → Token → Pass} (value? : Text → Option Text)
    (h : ∀ pass token, step pass token =
      match value? token.key with
      | some value => pass.substitute token.literal value
      | none => pass)
    (tokens : List Token) (pass : Pass) :
    tokens.foldl step pass = pass.absorb { entries := recorded value? tokens } := by
  rw [foldl_eq_absorb (fun token => (value? token.key).map fun value => (token.literal, value))
    (fun _ => none), List.filterMap_none, recorded]
  intro pass token
  rw [h]
  cases value? token.key <;> simp [Pass.substitute_eq_absorb]

theorem resolveVariables_eq (vars : Variables) (tokens : List Token) (pass : Pass) :
    tokens.foldl (resolveVariable vars) pass =
      pass.absorb { entries := recorded vars.get? tokens, problems := unknown vars.get? tokens } := by
  refine foldl_eq_absorb _ _ (fun pass token => ?_) tokens pass
  cases h : vars.get? token.key with
  | some value => simp [resolveVariable, h, Pass.substitute_eq_absorb]
  | none => simp [resolveVariable, h, Pass.report_eq_absorb]

theorem resolveFolders_eq (folders : List WorkspaceFolder) (tokens : List Token) (pass : Pass) :
    tokens.foldl (resolveFolder folders) pass =
      pass.absorb
        { entries := recorded (fun key => (findFolder? folders key).map (·.path)) tokens } := by
  refine foldl_eq_recorded _ (fun pass token => ?_) tokens pass
  cases h : findFolder? folders token.key <;> simp [resolveFolder, h]

theorem resolveVariants_eq (variants : Table Text) (tokens : List Token) (pass : Pass) :
    tokens.foldl (resolveVariant variants) pass =
      pass.absorb
        { entries := recorded (fun key => some ((variants.get? key).getD [])) tokens } :=
  foldl_eq_recorded (fun key => some ((variants.get? key).getD [])) (fun _ _ => rfl) tokens pass

namespace Lookup

def value? (source : Lookup) (normalize : Option Text → Text) (key : Text) : Option Text :=
  match source key with
  | .ok raw => some (normalize raw)
  | .error _ => none

def fault? (source : Lookup) (key : Text) : Option Fault :=
  match source key with
  | .ok _ => none
  | .error fault => some fault

def refersBack (source : Lookup) (normalize : Option Text → Text) (key : Text) : Bool :=
  (source.value? normalize key).any fun value => refersToItself value key

/-- Whether the loop over environment tokens goes on behind a key. -/
def goesOn (source : Lookup) (normalize : Option Text → Text) (key : Text) : Bool :=
  (source.fault? key).isNone && !source.refersBack normalize key

end Lookup

/-- The loop over environment tokens records the values before the first token at which it stops,
and either flags that token or fails at it. -/
theorem resolveEnvironment_eq (source : Lookup) (normalize : Option Text → Text)
    (tokens : List Token) (pass : Pass) :
    resolveEnvironment source normalize tokens pass =
      let stop := tokens.find? fun token => !source.goesOn normalize token.key
      (pass.absorb
        { entries := recorded (source.value? normalize)
            (tokens.takeWhile fun token => source.goesOn normalize token.key)
          circular := stop.filter fun token => (source.fault? token.key).isNone },
        stop.bind fun token => source.fault? token.key) := by
  induction tokens generalizing pass with
  | nil => simp [resolveEnvironment, recorded]
  | cons token tokens ih =>
    cases h : source token.key with
    | error fault =>
      simp [resolveEnvironment, h, Lookup.goesOn, Lookup.fault?, recorded, Option.filter]
    | ok raw =>
      by_cases hr : refersToItself (normalize raw) token.key = true
      · simp [resolveEnvironment, h, hr, Lookup.goesOn, Lookup.fault?, Lookup.refersBack,
          Lookup.value?, recorded, Pass.flagCircular_eq_absorb, Option.filter]
      · simp [resolveEnvironment, h, hr, Lookup.goesOn, Lookup.fault?, Lookup.refersBack,
          Lookup.value?, recorded, Pass.substitute_eq_absorb, Pass.absorb_absorb, ih]

theorem resolveParentEnvironment_eq (source : Lookup) (normalize : Option Text → Text)
    (tokens : List Token) (pass : Pass) :
    resolveParentEnvironment source normalize tokens pass =
      (pass.absorb
        { entries := recorded (source.value? normalize)
            (tokens.takeWhile fun token => (source.fault? token.key).isNone) },
        tokens.findSome? fun token => source.fault? token.key) := by
  induction tokens generalizing pass with
  | nil => simp [resolveParentEnvironment, recorded]
  | cons token tokens ih =>
    cases h : source token.key with
    | error fault => simp [resolveParentEnvironment, h, Lookup.fault?, recorded]
    | ok raw =>
      simp [resolveParentEnvironment, h, Lookup.fault?, Lookup.value?, recorded,
        Pass.substitute_eq_absorb, Pass.absorb_absorb, ih]

section Commands
variable {σ : Type}

def firstOccurrences : List Text → List Token → List Token
  | _, [] => []
  | seen, token :: tokens =>
    if seen.contains token.literal then firstOccurrences seen tokens
    else token :: firstOccurrences (token.literal :: seen) tokens

def answers (execute : Executor σ) (folder : Text) :
    List Token → σ → List (Token × Except CommandError Text) × σ
  | [], state => ([], state)
  | token :: tokens, state =>
    let (answer, state) := execute token.key folder state
    let (rest, state) := answers execute folder tokens state
    ((token, answer) :: rest, state)

def succeeded (given : List (Token × Except CommandError Text)) : List (Text × Text) :=
  given.filterMap fun (token, answer) => answer.toOption.map fun output => (token.literal, output)

def failed (given : List (Token × Except CommandError Text)) : ProblemList :=
  given.filterMap fun (token, answer) =>
    match answer with
    | .ok _ => none
    | .error _ => some ⟨.commandExecutionFailed, token.literal⟩

theorem mem_of_mem_firstOccurrences {seen : List Text} {tokens : List Token} {token : Token}
    (h : token ∈ firstOccurrences seen tokens) : token ∈ tokens ∧ token.literal ∉ seen := by
  induction tokens generalizing seen with
  | nil => cases h
  | cons first tokens ih =>
    rw [firstOccurrences] at h
    split at h
    · exact ⟨List.mem_cons_of_mem _ (ih h).1, (ih h).2⟩
    · next hc =>
      rcases List.mem_cons.mp h with rfl | h
      · exact ⟨List.mem_cons_self, by simpa using hc⟩
      · exact ⟨List.mem_cons_of_mem _ (ih h).1, fun hs => (ih h).2 (List.mem_cons_of_mem _ hs)⟩

theorem literals_firstOccurrences_nodup (seen : List Text) (tokens : List Token) :
    ((firstOccurrences seen tokens).map Token.literal).Nodup := by
  induction tokens generalizing seen with
  | nil => exact List.nodup_nil
  | cons first tokens ih =>
    rw [firstOccurrences]
    split
    · exact ih seen
    · refine List.nodup_cons.mpr ⟨fun h => ?_, ih _⟩
      obtain ⟨later, hm, he⟩ := List.mem_map.mp h
      exact (mem_of_mem_firstOccurrences hm).2 (he ▸ List.mem_cons_self)

theorem exists_mem_firstOccurrences {seen : List Text} {tokens : List Token} {token : Token}
    (h : token ∈ tokens) (hs : token.literal ∉ seen) :
    ∃ first ∈ firstOccurrences seen tokens, first.literal = token.literal := by
  induction tokens generalizing seen with
  | nil => cases h
  | cons head tokens ih =>
    rw [firstOccurrences]
    rcases List.mem_cons.mp h with rfl | h
    · simp [hs]
    · split
      · exact ih h hs
      · by_cases he : token.literal = head.literal
        · exact ⟨head, List.mem_cons_self, he.symm⟩
        · obtain ⟨first, hm, hf⟩ := @ih (head.literal :: seen) h (by simp [he, hs])
          exact ⟨first, List.mem_cons_of_mem _ hm, hf⟩

theorem map_fst_answers (execute : Executor σ) (folder : Text) (tokens : List Token) (state : σ) :
    (answers execute folder tokens state).1.map Prod.fst = tokens := by
  induction tokens generalizing state with
  | nil => rfl
  | cons token tokens ih => simp [answers, ih]

theorem mem_of_mem_answers {execute : Executor σ} {folder : Text} {tokens : List Token} {state : σ}
    {token : Token} {answer : Except CommandError Text}
    (h : (token, answer) ∈ (answers execute folder tokens state).1) : token ∈ tokens := by
  rw [← map_fst_answers execute folder tokens state]
  exact List.mem_map_of_mem h

theorem exists_execute_of_mem_answers {execute : Executor σ} {folder : Text} {tokens : List Token}
    {state : σ} {token : Token} {answer : Except CommandError Text}
    (h : (token, answer) ∈ (answers execute folder tokens state).1) :
    ∃ before, (execute token.key folder before).1 = answer := by
  induction tokens generalizing state with
  | nil => cases h
  | cons first tokens ih =>
    rcases List.mem_cons.mp h with h | h
    · obtain ⟨rfl, rfl⟩ := Prod.mk.inj h
      exact ⟨state, rfl⟩
    · exact ih h

@[simp] theorem succeeded_ok (token : Token) (output : Text)
    (given : List (Token × Except CommandError Text)) :
    succeeded ((token, .ok output) :: given) = (token.literal, output) :: succeeded given := rfl

@[simp] theorem succeeded_error (token : Token) (reason : CommandError)
    (given : List (Token × Except CommandError Text)) :
    succeeded ((token, .error reason) :: given) = succeeded given := rfl

theorem mem_succeeded {given : List (Token × Except CommandError Text)} {literal output : Text} :
    (literal, output) ∈ succeeded given ↔
      ∃ token, (token, .ok output) ∈ given ∧ token.literal = literal := by
  induction given with
  | nil => simp [succeeded]
  | cons answer given ih =>
    obtain ⟨token, _ | value⟩ := answer
    · simp [ih]
    · simp only [succeeded_ok, List.mem_cons, Prod.mk.injEq, ih, Except.ok.injEq]
      constructor
      · rintro (⟨rfl, rfl⟩ | ⟨t, ht, rfl⟩)
        · exact ⟨token, .inl ⟨rfl, rfl⟩, rfl⟩
        · exact ⟨t, .inr ht, rfl⟩
      · rintro ⟨t, ⟨rfl, rfl⟩ | ht, rfl⟩
        · exact .inl ⟨rfl, rfl⟩
        · exact .inr ⟨t, ht, rfl⟩

@[simp] theorem failed_ok (token : Token) (output : Text)
    (given : List (Token × Except CommandError Text)) :
    failed ((token, .ok output) :: given) = failed given := rfl

@[simp] theorem failed_error (token : Token) (reason : CommandError)
    (given : List (Token × Except CommandError Text)) :
    failed ((token, .error reason) :: given) =
      ⟨.commandExecutionFailed, token.literal⟩ :: failed given := rfl

theorem mem_failed {given : List (Token × Except CommandError Text)} {token : Token}
    {reason : CommandError} (h : (token, .error reason) ∈ given) :
    ⟨.commandExecutionFailed, token.literal⟩ ∈ failed given :=
  List.mem_filterMap.mpr ⟨_, h, rfl⟩

/-- If only literals attempted before have replacements, the commands of all others run in the
order of their first occurrence. -/
theorem runCommands_eq (execute : Executor σ) (folder : Text) (attempted : List Text)
    (tokens : List Token) (pass : Pass) (state : σ)
    (h : ∀ token ∈ tokens, pass.isSubstituted token.literal = true → token.literal ∈ attempted) :
    runCommands execute folder attempted tokens pass state =
      let given := answers execute folder (firstOccurrences attempted tokens) state
      (pass.absorb { entries := succeeded given.1, problems := failed given.1 }, given.2) := by
  induction tokens generalizing attempted pass state with
  | nil => simp [runCommands, firstOccurrences, answers, succeeded, failed]
  | cons token tokens ih =>
    obtain ⟨ht, hrest⟩ := List.forall_mem_cons.mp h
    by_cases hc : token.literal ∈ attempted
    · simp [runCommands, firstOccurrences, hc, ih attempted pass state hrest]
    · have hs : pass.isSubstituted token.literal = false := by
        simpa using mt ht hc
      have hnext (output : Text) : ∀ t ∈ tokens,
          (pass.substitute token.literal output).isSubstituted t.literal = true →
            t.literal ∈ token.literal :: attempted := by
        intro t hm hsub
        by_cases he : t.literal = token.literal
        · exact he ▸ List.mem_cons_self
        · refine List.mem_cons_of_mem _ (hrest t hm ?_)
          simpa [Pass.isSubstituted, Pass.substitute, Table.contains,
            Table.get?_insert_of_ne he] using hsub
      rcases he : execute token.key folder state with ⟨answer, after⟩
      cases answer with
      | ok output =>
        simp only [Pass.substitute_eq_absorb] at hnext
        simp [runCommands, firstOccurrences, answers, hc, hs, he, Pass.substitute_eq_absorb,
          ih _ _ _ (hnext output), Pass.absorb_absorb]
      | error reason =>
        have hsame : ∀ t ∈ tokens,
            (pass.report .commandExecutionFailed token.literal).isSubstituted t.literal = true →
              t.literal ∈ token.literal :: attempted :=
          fun t hm hsub => List.mem_cons_of_mem _ (hrest t hm hsub)
        simp only [Pass.report_eq_absorb] at hsame
        simp [runCommands, firstOccurrences, answers, hc, hs, he, Pass.report_eq_absorb,
          ih _ _ _ hsame, Pass.absorb_absorb]

end Commands

end Placeholders
