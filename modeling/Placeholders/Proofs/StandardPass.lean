import Placeholders.Proofs.PassContribution

/-! One pass of the engine of the six namespaces. A pass either fails at the first failing lookup
and leaves the world alone, or it holds exactly the values of the tokens that were resolved in it.
No resolver overwrites what another one recorded. -/

namespace Placeholders
namespace Services
variable {σ : Type} (services : Services σ) (context : Context) (text : Text) (state : σ)

def resolver : Namespace → Resolver σ
  | .variable => variableResolver
  | .environment => environmentResolver services.environment services.normalize
  | .parentEnvironment => parentEnvironmentResolver services.environment services.normalize
  | .workspaceFolder => workspaceFolderResolver services.folders
  | .variant => variantResolver
  | .command => commandResolver services.execute

theorem resolvers_standard :
    (Engine.standard services).resolvers = Namespace.all.map services.resolver := rfl

abbrev source : Lookup := context.environment services.environment

def goesOn : Namespace → Token → Bool
  | .environment, token => (services.source context).goesOn services.normalize token.key
  | .parentEnvironment, token => (services.environment.fault? token.key).isNone
  | _, _ => true

/-- The tokens of a namespace that a pass resolves: those before the first stop. -/
def resolved (ns : Namespace) : List Token := (scan text ns).takeWhile (services.goesOn context ns)

def stop? : Option Token :=
  (scan text .environment).find? fun token => !services.goesOn context .environment token

def flagged? : Option Token :=
  (services.stop? context text).filter fun token =>
    ((services.source context).fault? token.key).isNone

def faultIn? : Namespace → Option Fault
  | .environment =>
    (services.stop? context text).bind fun token => (services.source context).fault? token.key
  | .parentEnvironment =>
    (scan text .parentEnvironment).findSome? fun token => services.environment.fault? token.key
  | _ => none

def fault? : Option Fault :=
  (services.faultIn? context text .environment).or (services.faultIn? context text .parentEnvironment)

def value? : Namespace → Text → Option Text
  | .variable => context.vars.get?
  | .environment => (services.source context).value? services.normalize
  | .parentEnvironment => services.environment.value? services.normalize
  | .workspaceFolder => fun key => (findFolder? services.folders key).map (·.path)
  | .variant => fun key => context.variants.map fun table => (table.get? key).getD []
  | .command => fun _ => none

def faultAt? : Namespace → Text → Option Fault
  | .environment => (services.source context).fault?
  | .parentEnvironment => services.environment.fault?
  | _ => fun _ => none

def commandAnswers : List (Token × Except CommandError Text) × σ :=
  if context.commandsDisabled then ([], state)
  else answers services.execute context.workspaceFolder
    (firstOccurrences [] (scan text .command)) state

def commandProblems : ProblemList :=
  if context.commandsDisabled then
    ((scan text .command).head?.map fun token => ⟨.commandsDisabled, token.literal⟩).toList
  else failed (services.commandAnswers context text state).1

def part : Namespace → Contribution
  | .variable =>
    { entries := recorded context.vars.get? (services.resolved context text .variable)
      problems := unknown context.vars.get? (scan text .variable) }
  | .environment =>
    { entries := recorded (services.value? context .environment)
        (services.resolved context text .environment)
      circular := services.flagged? context text }
  | .command =>
    { entries := succeeded (services.commandAnswers context text state).1
      problems := services.commandProblems context text state }
  | ns => { entries := recorded (services.value? context ns) (services.resolved context text ns) }

def after : Namespace → σ
  | .command => (services.commandAnswers context text state).2
  | _ => state

/-- A token has a value in a pass that starts in a given state. -/
def Yields (token : Token) (value : Text) : Prop :=
  match token.ns with
  | .command => (token, .ok value) ∈ (services.commandAnswers context text state).1
  | ns => services.value? context ns token.key = some value

theorem resolved_eq_scan {ns : Namespace} (he : ns ≠ .environment) (hp : ns ≠ .parentEnvironment) :
    services.resolved context text ns = scan text ns := by
  apply List.takeWhile_eq_self_iff.mpr
  intro token _
  cases ns with
  | environment => exact absurd rfl he
  | parentEnvironment => exact absurd rfl hp
  | _ => rfl

theorem mem_scan_of_mem_resolved {ns : Namespace} {token : Token}
    (h : token ∈ services.resolved context text ns) : token ∈ scan text ns :=
  (List.takeWhile_subset _) h

/-- Behind a failing lookup nothing is resolved. -/
theorem faultAt?_of_mem_resolved {ns : Namespace} {token : Token}
    (h : token ∈ services.resolved context text ns) :
    services.faultAt? context ns token.key = none := by
  have hgo : services.goesOn context ns token = true := List.mem_takeWhile_imp h
  cases ns with
  | environment =>
    rw [goesOn, Lookup.goesOn, Bool.and_eq_true, Option.isNone_iff_eq_none] at hgo
    exact hgo.1
  | parentEnvironment => exact Option.isNone_iff_eq_none.mp hgo
  | _ => rfl

/-- Each resolver adds its part, whatever the pass holds of other namespaces. -/
theorem resolve_resolver (ns : Namespace) (pass : Pass) (hi : pass.input = text)
    (hs : ns = .command → ∀ token ∈ scan text .command, pass.isSubstituted token.literal = false) :
    (services.resolver ns).resolve context pass state =
      ⟨pass.absorb (services.part context text state ns), services.after context text state ns,
        services.faultIn? context text ns⟩ := by
  subst hi
  cases ns with
  | «variable» =>
    simp [resolver, variableResolver, Resolver.pure, resolveVariables_eq, part, after, faultIn?,
      resolved_eq_scan]
  | environment =>
    simp only [resolver, environmentResolver, resolveEnvironment_eq]
    rfl
  | parentEnvironment =>
    simp only [resolver, parentEnvironmentResolver, resolveParentEnvironment_eq]
    rfl
  | workspaceFolder =>
    simp [resolver, workspaceFolderResolver, Resolver.pure, resolveFolders_eq, part, after,
      faultIn?, resolved_eq_scan, value?]
  | variant =>
    cases hv : context.variants with
    | none =>
      simp [resolver, variantResolver, Resolver.pure, part, after, faultIn?, value?, hv, recorded]
    | some variants =>
      simp [resolver, variantResolver, Resolver.pure, resolveVariants_eq, part, after, faultIn?,
        resolved_eq_scan, value?, hv]
  | command =>
    by_cases hd : context.commandsDisabled = true
    · cases ht : scan pass.input .command <;>
        simp [resolver, commandResolver, hd, part, after, faultIn?, commandProblems, commandAnswers,
          refuseCommands, succeeded, ht, Pass.report_eq_absorb]
    · have hrun := runCommands_eq services.execute context.workspaceFolder []
        (scan pass.input .command) pass state
        (fun token ht h => absurd h (by simp [hs rfl token ht]))
      simp [resolver, commandResolver, hd, part, after, faultIn?, commandProblems, commandAnswers,
        hrun]

theorem fault?_eq_none_of_forall
    (h : ∀ ns, ∀ token ∈ scan text ns, services.faultAt? context ns token.key = none) :
    services.fault? context text = none := by
  refine Option.or_eq_none_iff.mpr ⟨?_, List.findSome?_eq_none_iff.mpr (h .parentEnvironment)⟩
  rw [faultIn?, Option.bind_eq_none_iff]
  intro token ht
  exact h .environment token (List.mem_of_find?_eq_some ht)

theorem flagged?_of_scan_eq_nil (h : scan text .environment = []) :
    services.flagged? context text = none := by
  rw [flagged?, stop?, h]
  rfl

theorem mem_scan_of_mem_commandAnswers {token : Token} {answer : Except CommandError Text}
    (h : (token, answer) ∈ (services.commandAnswers context text state).1) :
    token ∈ scan text .command := by
  rw [commandAnswers] at h
  split at h
  · cases h
  · exact (mem_of_mem_firstOccurrences (mem_of_mem_answers h)).1

/-- Each literal is answered once. -/
theorem literals_commandAnswers_nodup :
    (((services.commandAnswers context text state).1.map Prod.fst).map Token.literal).Nodup := by
  rw [commandAnswers]
  split
  · exact List.nodup_nil
  · rw [map_fst_answers]
    exact literals_firstOccurrences_nodup [] _

theorem commandAnswers_nodup :
    ((services.commandAnswers context text state).1.map Prod.fst).Nodup :=
  (services.literals_commandAnswers_nodup context text state).of_map

theorem exists_mem_commandAnswers (hd : context.commandsDisabled = false) {token : Token}
    (h : token ∈ scan text .command) :
    ∃ answer, (token, answer) ∈ (services.commandAnswers context text state).1 := by
  obtain ⟨first, hm, hl⟩ := @exists_mem_firstOccurrences [] _ _ h (by simp)
  have hfirst : first = token := eq_of_mem_scan (mem_of_mem_firstOccurrences hm).1 h hl
  rw [hfirst, ← map_fst_answers services.execute context.workspaceFolder
    (firstOccurrences [] (scan text .command)) state] at hm
  obtain ⟨⟨asked, answer⟩, ha, rfl⟩ := List.mem_map.mp hm
  exact ⟨answer, by rwa [commandAnswers, if_neg (by simp [hd])]⟩

theorem exists_execute_of_mem_commandAnswers {token : Token} {answer : Except CommandError Text}
    (h : (token, answer) ∈ (services.commandAnswers context text state).1) :
    context.commandsDisabled = false ∧
      ∃ before, (services.execute token.key context.workspaceFolder before).1 = answer := by
  rw [commandAnswers] at h
  split at h
  · cases h
  · next hd => exact ⟨by simpa using hd, exists_execute_of_mem_answers h⟩

private theorem yields_of_ne_command {token : Token} (h : token.ns ≠ .command) {value : Text} :
    services.Yields context text state token value ↔
      services.value? context token.ns token.key = some value := by
  rw [Yields]
  cases hn : token.ns with
  | command => exact absurd hn h
  | _ => rfl

theorem yields_of_command {token : Token} (h : token.ns = .command) {value : Text} :
    services.Yields context text state token value ↔
      (token, .ok value) ∈ (services.commandAnswers context text state).1 := by
  rw [Yields, h]

theorem Yields.unique {token : Token} {v w : Text}
    (hv : services.Yields context text state token v)
    (hw : services.Yields context text state token w) : v = w := by
  by_cases h : token.ns = .command
  · rw [yields_of_command services context text state h] at hv hw
    have := List.inj_on_of_nodup_map (services.commandAnswers_nodup context text state) hv hw rfl
    exact Except.ok.inj (Prod.mk.inj this).2
  · rw [yields_of_ne_command services context text state h] at hv hw
    exact Option.some.inj (hv.symm.trans hw)

theorem mem_entries_part {ns : Namespace} {literal value : Text} :
    (literal, value) ∈ (services.part context text state ns).entries ↔
      ∃ token ∈ services.resolved context text ns, token.literal = literal ∧
        services.Yields context text state token value := by
  have hns {token : Token} (ht : token ∈ services.resolved context text ns) : token.ns = ns :=
    (readable_of_mem_scan (services.mem_scan_of_mem_resolved context text ht)).2.1
  by_cases hc : ns = .command
  · subst hc
    rw [resolved_eq_scan _ _ _ (by simp) (by simp)] at hns ⊢
    refine mem_succeeded.trans ⟨?_, ?_⟩
    · rintro ⟨token, ht, hl⟩
      have hm := services.mem_scan_of_mem_commandAnswers context text state ht
      exact ⟨token, hm, hl, (yields_of_command services context text state (hns hm)).mpr ht⟩
    · rintro ⟨token, hm, hl, ht⟩
      exact ⟨token, (yields_of_command services context text state (hns hm)).mp ht, hl⟩
  · have hentries : (services.part context text state ns).entries =
        recorded (services.value? context ns) (services.resolved context text ns) := by
      cases ns with
      | command => exact absurd rfl hc
      | _ => rfl
    rw [hentries, mem_recorded]
    refine exists_congr fun token => and_congr_right fun ht => and_congr_right fun _ => ?_
    rw [yields_of_ne_command services context text state (hns ht ▸ hc), hns ht]

def afterParts (namespaces : List Namespace) : Pass :=
  namespaces.foldl (fun pass ns => pass.absorb (services.part context text state ns))
    { input := text }

private theorem foldl_absorb_parts (namespaces : List Namespace) (pass : Pass) :
    namespaces.foldl (fun pass ns => pass.absorb (services.part context text state ns)) pass =
      { input := pass.input
        substitution := Substitution.recordAll pass.substitution
          (namespaces.flatMap fun ns => (services.part context text state ns).entries)
        circular := if .environment ∈ namespaces then
          (services.flagged? context text).or pass.circular else pass.circular
        problems := pass.problems ++
          namespaces.flatMap fun ns => (services.part context text state ns).problems } := by
  induction namespaces generalizing pass with
  | nil => simp
  | cons ns namespaces ih =>
    rw [List.foldl_cons, ih]
    cases ns <;> cases hf : services.flagged? context text <;>
      simp [Pass.absorb, Substitution.recordAll_append, part, hf]

/-- What a pass holds, read off the parts of the namespaces whose turn it was. -/
theorem afterParts_eq (namespaces : List Namespace) :
    services.afterParts context text state namespaces =
      { input := text
        substitution := Substitution.recordAll Table.empty
          (namespaces.flatMap fun ns => (services.part context text state ns).entries)
        circular := if .environment ∈ namespaces then services.flagged? context text else none
        problems := namespaces.flatMap fun ns => (services.part context text state ns).problems } := by
  rw [afterParts, foldl_absorb_parts]
  simp

theorem input_afterParts (namespaces : List Namespace) :
    (services.afterParts context text state namespaces).input = text := by
  rw [afterParts_eq]

theorem circular_afterParts (namespaces : List Namespace) :
    (services.afterParts context text state namespaces).circular =
      if .environment ∈ namespaces then services.flagged? context text else none := by
  rw [afterParts_eq]

theorem problems_afterParts (namespaces : List Namespace) :
    (services.afterParts context text state namespaces).problems =
      namespaces.flatMap fun ns => (services.part context text state ns).problems := by
  rw [afterParts_eq]

/-- The literals of all tokens that namespaces resolve, with their values, and nothing else. -/
theorem get?_afterParts (namespaces : List Namespace) {literal value : Text} :
    (services.afterParts context text state namespaces).substitution.get? literal = some value ↔
      ∃ ns ∈ namespaces, ∃ token ∈ services.resolved context text ns, token.literal = literal ∧
        services.Yields context text state token value := by
  rw [afterParts_eq]
  refine (Substitution.get?_recordAll_eq_some_iff ?_).trans ?_
  · intro l v w hv hw
    obtain ⟨ns, _, hv⟩ := List.mem_flatMap.mp hv
    obtain ⟨ms, _, hw⟩ := List.mem_flatMap.mp hw
    obtain ⟨s, hs, hsl, hyv⟩ := (services.mem_entries_part context text state).mp hv
    obtain ⟨t, ht, htl, hyw⟩ := (services.mem_entries_part context text state).mp hw
    have hst : s = t :=
      eq_of_mem_scan (services.mem_scan_of_mem_resolved context text hs)
        (services.mem_scan_of_mem_resolved context text ht) (hsl.trans htl.symm)
    exact Yields.unique services context text state hyv (hst ▸ hyw)
  · simp only [List.mem_flatMap, mem_entries_part]

theorem exists_token_of_get? (namespaces : List Namespace) {literal value : Text}
    (h : (services.afterParts context text state namespaces).substitution.get? literal =
      some value) : ∃ token : Token, token.Readable ∧ token.literal = literal := by
  obtain ⟨_, _, token, ht, hl, _⟩ := (services.get?_afterParts context text state _).mp h
  exact ⟨token, (readable_of_mem_scan (services.mem_scan_of_mem_resolved context text ht)).1, hl⟩

theorem literalsOnly_afterParts (namespaces : List Namespace) :
    Substitution.LiteralsOnly
      (services.afterParts context text state namespaces).substitution.effective := by
  rintro ⟨literal, value⟩ hm
  obtain ⟨token, ⟨g, hg, ha, _, he⟩, hl⟩ :=
    services.exists_token_of_get? context text state _ (Substitution.mem_effective.mp hm).1
  exact ⟨g, hg, token.key, ha, by rw [← hl, he]; rfl⟩

/-- No resolver finds a replacement recorded for a token of its namespace before its turn. -/
theorem not_isSubstituted_afterParts {namespaces : List Namespace} {ns : Namespace}
    (h : ns ∉ namespaces) {token : Token} (ht : token ∈ scan text ns) :
    (services.afterParts context text state namespaces).isSubstituted token.literal = false := by
  rw [Pass.isSubstituted, Table.contains, Option.isSome_eq_false_iff, Option.isNone_iff_eq_none,
    Option.eq_none_iff_forall_ne_some]
  intro value hv
  obtain ⟨ms, hms, other, ho, hl, _⟩ := (services.get?_afterParts context text state _).mp hv
  have hns := ns_eq_of_mem_scan (services.mem_scan_of_mem_resolved context text ho) ht hl
  exact h (hns ▸ hms)

theorem absorb_afterParts (namespaces : List Namespace) (ns : Namespace) :
    (services.afterParts context text state namespaces).absorb
        (services.part context text state ns) =
      services.afterParts context text state (namespaces ++ [ns]) := by
  simp [afterParts]

private theorem resolveAll_cons_resolver {namespaces : List Namespace} {ns : Namespace}
    (h : ns ∉ namespaces) (rest : List (Resolver σ)) :
    resolveAll context (services.resolver ns :: rest)
        (services.afterParts context text state namespaces) state =
      match services.faultIn? context text ns with
      | some fault => ⟨services.afterParts context text state (namespaces ++ [ns]),
          services.after context text state ns, some fault⟩
      | none => resolveAll context rest (services.afterParts context text state (namespaces ++ [ns]))
          (services.after context text state ns) := by
  rw [resolveAll, resolve_resolver services context text state ns _
    (services.input_afterParts context text state namespaces)
    (fun hc token ht => services.not_isSubstituted_afterParts context text state h (hc ▸ ht))]
  rw [absorb_afterParts]
  cases services.faultIn? context text ns <;> rfl

/-- A pass that fails leaves the world alone. -/
theorem resolveAll_of_fault {fault : Fault} (h : services.fault? context text = some fault) :
    (resolveAll context (Engine.standard services).resolvers { input := text } state).fault =
        some fault ∧
      (resolveAll context (Engine.standard services).resolvers { input := text } state).state =
        state := by
  have hstart : ({ input := text } : Pass) = services.afterParts context text state [] := rfl
  rw [resolvers_standard, hstart]
  simp only [Namespace.all, List.map_cons, List.map_nil]
  rw [resolveAll_cons_resolver _ _ _ _ (by simp)]
  simp only [faultIn?, after]
  rw [resolveAll_cons_resolver _ _ _ _ (by simp)]
  cases he : services.faultIn? context text .environment with
  | some first =>
    rw [fault?, he, Option.some_or] at h
    exact ⟨h, rfl⟩
  | none =>
    rw [fault?, he, Option.none_or] at h
    simp only [after]
    rw [resolveAll_cons_resolver _ _ _ _ (by simp), h]
    exact ⟨rfl, rfl⟩

/-- A pass that does not fail records the parts of all namespaces. -/
theorem resolveAll_of_fault?_eq_none (h : services.fault? context text = none) :
    resolveAll context (Engine.standard services).resolvers { input := text } state =
      ⟨services.afterParts context text state Namespace.all,
        (services.commandAnswers context text state).2, none⟩ := by
  obtain ⟨he, hp⟩ := Option.or_eq_none_iff.mp h
  have hstart : ({ input := text } : Pass) = services.afterParts context text state [] := rfl
  rw [resolvers_standard, hstart]
  simp only [Namespace.all, List.map_cons, List.map_nil]
  rw [resolveAll_cons_resolver _ _ _ _ (by simp)]
  simp only [faultIn?, after]
  rw [resolveAll_cons_resolver _ _ _ _ (by simp), he]
  simp only [after]
  rw [resolveAll_cons_resolver _ _ _ _ (by simp), hp]
  simp only [after]
  rw [resolveAll_cons_resolver _ _ _ _ (by simp)]
  simp only [faultIn?, after]
  rw [resolveAll_cons_resolver _ _ _ _ (by simp)]
  simp only [faultIn?, after]
  rw [resolveAll_cons_resolver _ _ _ _ (by simp)]
  rfl

theorem fault_resolveAll :
    (resolveAll context (Engine.standard services).resolvers { input := text } state).fault =
      services.fault? context text := by
  cases h : services.fault? context text with
  | some fault => exact (services.resolveAll_of_fault context text state h).1
  | none => rw [services.resolveAll_of_fault?_eq_none context text state h]

/-- The pass over a text in a state, if it does not fail. -/
def finished : FinishedPass := (services.afterParts context text state Namespace.all).finish

def withExecutor {τ : Type} (execute : Executor τ) : Services τ :=
  { services with execute := execute }

/-- What commands answer is all that the parts of a pass are told by its executor. -/
theorem part_withExecutor {τ : Type} {execute : Executor τ} {other : τ}
    (h : ((services.withExecutor execute).commandAnswers context text other).1 =
      (services.commandAnswers context text state).1) :
    (services.withExecutor execute).part context text other =
      services.part context text state := by
  funext ns
  cases ns with
  | command =>
    simp only [part, commandProblems, h]
  | _ => rfl

theorem finished_withExecutor {τ : Type} {execute : Executor τ} {other : τ}
    (h : ((services.withExecutor execute).commandAnswers context text other).1 =
      (services.commandAnswers context text state).1) :
    (services.withExecutor execute).finished context text other =
      services.finished context text state := by
  simp only [finished, afterParts, services.part_withExecutor context text state h]

/-- Where commands are disabled none is asked. -/
theorem commandAnswers_of_disabled (h : context.commandsDisabled = true) :
    services.commandAnswers context text state = ([], state) := by
  rw [commandAnswers, if_pos h]

theorem pass_of_fault {fault : Fault} (h : services.fault? context text = some fault) :
    (Engine.standard services).pass context text state = (.error fault, state) := by
  obtain ⟨hf, hs⟩ := services.resolveAll_of_fault context text state h
  simp only [Engine.pass, hf, hs]

theorem pass_of_fault?_eq_none (h : services.fault? context text = none) :
    (Engine.standard services).pass context text state =
      (.ok (services.finished context text state),
        (services.commandAnswers context text state).2) := by
  have hinput : { services.afterParts context text state Namespace.all with input := text } =
      services.afterParts context text state Namespace.all :=
    congrArg (fun input => { services.afterParts context text state Namespace.all with input })
      (services.input_afterParts context text state Namespace.all).symm
  simp only [Engine.pass, services.resolveAll_of_fault?_eq_none context text state h, hinput,
    finished]

/-- A pass that returned did not fail, and returned what it recorded. -/
theorem pass_eq_ok_iff {pass : FinishedPass} {final : σ} :
    (Engine.standard services).pass context text state = (.ok pass, final) ↔
      services.fault? context text = none ∧ services.finished context text state = pass ∧
        (services.commandAnswers context text state).2 = final := by
  cases h : services.fault? context text with
  | some fault => simp [services.pass_of_fault context text state h]
  | none => simp [services.pass_of_fault?_eq_none context text state h]

/-- A pass that failed did so at a lookup, and left the world alone. -/
theorem pass_eq_error_iff_fault? {fault : Fault} {final : σ} :
    (Engine.standard services).pass context text state = (.error fault, final) ↔
      services.fault? context text = some fault ∧ state = final := by
  cases h : services.fault? context text with
  | some first => simp [services.pass_of_fault context text state h]
  | none => simp [services.pass_of_fault?_eq_none context text state h]

@[simp] theorem input_finished : (services.finished context text state).input = text :=
  services.input_afterParts context text state Namespace.all

theorem circular_finished :
    (services.finished context text state).circular = services.flagged? context text :=
  services.circular_afterParts context text state Namespace.all

/-- Unknown variables come first, then the problems of the commands. -/
theorem problems_finished :
    (services.finished context text state).problems =
      unknown context.vars.get? (scan text .variable) ++
        services.commandProblems context text state :=
  (services.problems_afterParts context text state Namespace.all).trans
    (by simp [Namespace.all, part])

theorem commandAnswers_of_scan_eq_nil (h : scan text .command = []) :
    services.commandAnswers context text state = ([], state) := by
  simp [commandAnswers, h, firstOccurrences, answers]

/-- Where every variable is known and no command is asked, no problem is recorded. -/
theorem problems_finished_eq_nil
    (hv : ∀ token ∈ scan text .variable, (context.vars.get? token.key).isSome = true)
    (hc : scan text .command = []) : (services.finished context text state).problems = [] := by
  rw [problems_finished, List.append_eq_nil_iff]
  constructor
  · apply List.filterMap_eq_nil_iff.mpr
    intro token ht
    rw [if_neg]
    simpa [Option.isSome_iff_ne_none] using hv token ht
  · simp [commandProblems, hc, commandAnswers_of_scan_eq_nil, failed]

/-- A pass without effect is one in which every value is the literal itself. -/
theorem changed_finished_eq_false_iff :
    (services.finished context text state).changed = false ↔
      ∀ ns, ∀ token ∈ services.resolved context text ns, ∀ value,
        services.Yields context text state token value → value = token.literal := by
  rw [finished, Pass.finish, input_afterParts, Substitution.changed_apply_eq_false_iff,
    Substitution.effective_eq_nil_iff]
  constructor
  · intro h ns token ht value hy
    refine h token.literal value ((services.get?_afterParts context text state _).mpr ?_)
    exact ⟨ns, ns.mem_all, token, ht, rfl, hy⟩
  · intro h literal value hg
    obtain ⟨ns, _, token, ht, rfl, hy⟩ := (services.get?_afterParts context text state _).mp hg
    exact h ns token ht value hy

theorem result_finished_of_changed_eq_false
    (h : (services.finished context text state).changed = false) :
    (services.finished context text state).result = text := by
  simp only [finished, Pass.finish, input_afterParts] at h ⊢
  exact Substitution.result_apply_of_unchanged h

/-- A text without tokens passes as it is, and nothing is asked. -/
theorem pass_of_scan_eq_nil (h : ∀ ns, scan text ns = []) :
    (Engine.standard services).pass context text state =
      (.ok ⟨text, text, false, none, []⟩, state) := by
  have hf : services.fault? context text = none :=
    services.fault?_eq_none_of_forall context text fun ns token ht => by
      rw [h ns] at ht
      cases ht
  have hch : (services.finished context text state).changed = false := by
    rw [changed_finished_eq_false_iff]
    intro ns token ht
    have hs := services.mem_scan_of_mem_resolved context text ht
    rw [h ns] at hs
    cases hs
  have hcirc : (services.finished context text state).circular = none := by
    rw [circular_finished, flagged?_of_scan_eq_nil _ _ _ (h .environment)]
  have hproblems : (services.finished context text state).problems = [] :=
    services.problems_finished_eq_nil context text state (by simp [h]) (h .command)
  have he : services.finished context text state = ⟨text, text, false, none, []⟩ := by
    calc services.finished context text state
        = ⟨(services.finished context text state).input,
            (services.finished context text state).result,
            (services.finished context text state).changed,
            (services.finished context text state).circular,
            (services.finished context text state).problems⟩ := rfl
      _ = ⟨text, text, false, none, []⟩ := by
        rw [input_finished, result_finished_of_changed_eq_false _ _ _ _ hch, hch, hcirc, hproblems]
  rw [pass_of_fault?_eq_none _ _ _ _ hf, commandAnswers_of_scan_eq_nil _ _ _ _ (h .command), he]

end Services

def Variables.bare : Variables where
  table := Table.ofList ((sourceDirectoryKey :: Required.all.map Required.key).map (·, []))
  required_isSome := fun r => by cases r <;> decide
  alias_eq := by decide

def Variables.bind (vars : Variables) (key value : Text) (hs : key ≠ Required.sourceDir.key)
    (ha : key ≠ sourceDirectoryKey) : Variables where
  table := vars.table.insert key value
  required_isSome := fun r => by
    rw [Table.get?_insert]
    split
    · rfl
    · exact vars.required_isSome r
  alias_eq := by
    rw [Table.get?_insert_of_ne ha.symm, Table.get?_insert_of_ne hs.symm, vars.alias_eq]

@[simp] theorem Variables.get?_bind_self (vars : Variables) (key value : Text)
    (hs : key ≠ Required.sourceDir.key) (ha : key ≠ sourceDirectoryKey) :
    (vars.bind key value hs ha).get? key = some value :=
  Table.get?_insert_self vars.table key value

/-- A world in which nothing is set, there is no folder and every command is unknown. -/
def Services.still : Services Unit where
  environment := fun _ => .ok none
  normalize := fun value => value.getD []
  folders := []
  execute := fun name _ state => (.error (.unknown name), state)

/-- A variant stands for itself behind one more character. -/
def Context.growing : Context where
  vars := .bare
  variants := some (Table.ofList [("v".toList, "x$\x7bvariant:v\x7d".toList)])

end Placeholders
