import Placeholders.Proofs.StandardPass

/-! Who writes what into a pass. A literal tells its spelling and its key, in whatever text it
stands, so it also tells which resolver can record a replacement for it and what that one looks up.
Two resolvers never write the same literal, and one of them writes it twice with one value only. -/

namespace Placeholders

namespace Grammar
variable {g h : Grammar} {s t token : Token} {text other : Text}

theorem eq_of_mem_scan_of_literal_eq (hg : g ∈ table) (hh : h ∈ table) (hs : s ∈ g.scan text)
    (ht : t ∈ h.scan other) (he : s.literal = t.literal) : g = h ∧ s = t := by
  obtain ⟨key, hk, _, rfl⟩ := mem_scan.mp hs
  obtain ⟨key', hk', _, rfl⟩ := mem_scan.mp ht
  obtain ⟨rfl, rfl⟩ := literal_inj hg hh (of_mem_keysFrom 0 hk).1 (of_mem_keysFrom 0 hk').1 he
  exact ⟨rfl, rfl⟩

/-- Its own spelling finds in the literal of a token this token only. -/
theorem scan_literal_of_mem_scan (h : token ∈ g.scan text) : g.scan token.literal = [token] := by
  obtain ⟨key, hk, hkeep, rfl⟩ := mem_scan.mp h
  have hscan := scan_literal_append (of_mem_keysFrom 0 hk).1 []
  rwa [List.append_nil, if_pos hkeep, scan_nil] at hscan

/-- What else stands in the literal of a token is found by other spellings. -/
theorem exists_scan_literal_eq (hg : g ∈ table) (ht : token ∈ g.scan text) :
    ∃ before after, Placeholders.scan token.literal token.ns = before ++ token :: after ∧
      ∀ other ∈ before ++ after, ∃ h ∈ table, h ≠ g ∧ other ∈ h.scan token.literal := by
  have hns : token.ns = g.ns := by
    obtain ⟨_, _, _, rfl⟩ := mem_scan.mp ht
    rfl
  obtain ⟨earlier, later, hsplit⟩ :=
    List.append_of_mem (show g ∈ ofNamespace g.ns by simp [ofNamespace, hg])
  have hnodup : (earlier ++ g :: later).Nodup := by
    rw [← hsplit]
    exact List.Nodup.filter _ (by decide)
  refine ⟨earlier.flatMap (scan · token.literal), later.flatMap (scan · token.literal), ?_, ?_⟩
  · rw [Placeholders.scan, hns, hsplit, List.flatMap_append, List.flatMap_cons,
      scan_literal_of_mem_scan ht, List.singleton_append]
  · intro other ho
    rw [← List.flatMap_append, List.mem_flatMap] at ho
    obtain ⟨h, hh, ho⟩ := ho
    have hmem : h ∈ ofNamespace g.ns := by
      rw [hsplit]
      simp only [List.mem_append, List.mem_cons] at hh ⊢
      exact hh.imp_right .inr
    refine ⟨h, List.mem_of_mem_filter hmem, ?_, ho⟩
    rintro rfl
    exact (List.nodup_middle.mp hnodup).notMem hh

end Grammar

section Commands
variable {σ : Type} {execute : Executor σ} {folder : Text}

theorem Pass.isSubstituted_substitute_of (pass : Pass) (literal replacement : Text) {other : Text}
    (h : pass.isSubstituted other = true) :
    (pass.substitute literal replacement).isSubstituted other = true := by
  by_cases he : other = literal
  · simp [isSubstituted, substitute, Table.contains, he]
  · simpa [isSubstituted, substitute, Table.contains, Table.get?_insert_of_ne he] using h

/-- Tokens that have a replacement need not be looked at. -/
theorem runCommands_filter (skip : Token → Bool) (attempted : List Text) (tokens : List Token)
    (pass : Pass) (state : σ)
    (h : ∀ token ∈ tokens, skip token = true → pass.isSubstituted token.literal = true) :
    runCommands execute folder attempted (tokens.filter fun token => !skip token) pass state =
      runCommands execute folder attempted tokens pass state := by
  induction tokens generalizing attempted pass state with
  | nil => rfl
  | cons token tokens ih =>
    obtain ⟨ht, hrest⟩ := List.forall_mem_cons.mp h
    cases hs : skip token with
    | true =>
      rw [List.filter_cons_of_neg (by simp [hs]), ih attempted pass state hrest, runCommands,
        if_pos (by simp [ht hs])]
    | false =>
      rw [List.filter_cons_of_pos (by simp [hs]), runCommands, runCommands, ih _ _ _ hrest]
      rcases execute token.key folder state with ⟨answer, after⟩
      cases answer with
      | ok output =>
        simp only
        rw [ih _ (pass.substitute token.literal output)]
        exact fun t hm hskip => pass.isSubstituted_substitute_of _ _ (hrest t hm hskip)
      | error reason =>
        simp only
        rw [ih _ (pass.report .commandExecutionFailed token.literal) _ hrest]

/-- Commands that are asked once for each literal give it one output. -/
theorem consistent_succeeded {tokens : List Token} (h : (tokens.map Token.literal).Nodup)
    (state : σ) :
    Substitution.Consistent (succeeded (answers execute folder tokens state).1) := by
  intro literal v w hv hw
  obtain ⟨s, hs, hsl⟩ := mem_succeeded.mp hv
  obtain ⟨t, ht, htl⟩ := mem_succeeded.mp hw
  obtain rfl : s = t := List.inj_on_of_nodup_map h (mem_of_mem_answers hs) (mem_of_mem_answers ht)
    (hsl.trans htl.symm)
  have hasked : ((answers execute folder tokens state).1.map Prod.fst).Nodup := by
    rw [map_fst_answers]
    exact h.of_map
  have hanswer := List.inj_on_of_nodup_map hasked hs ht rfl
  exact Except.ok.inj (Prod.mk.inj hanswer).2

end Commands

namespace Services
variable {σ : Type} (services : Services σ) (context : Context)

/-- The command tokens that wait for an answer: those without a replacement, each literal once. -/
def pending (pass : Pass) : List Token :=
  firstOccurrences []
    ((scan pass.input .command).filter fun token => !pass.isSubstituted token.literal)

/-- The replacements that the resolver of a namespace records at its turn, one after the other, also
where a literal gets more than one. -/
def writes (ns : Namespace) (pass : Pass) (state : σ) : List (Text × Text) :=
  match ns with
  | .command =>
    if context.commandsDisabled then []
    else succeeded (answers services.execute context.workspaceFolder (pending pass) state).1
  | ns => recorded (services.value? context ns) (services.resolved context pass.input ns)

/-- What the lookup of a namespace can answer for a key. A command is asked in some state of the
world. -/
def Answers (ns : Namespace) (key value : Text) : Prop :=
  match ns with
  | .command => ∃ state, (services.execute key context.workspaceFolder state).1 = .ok value
  | ns => services.value? context ns key = some value

def Steady (ns : Namespace) : Prop :=
  ∀ key v w, services.Answers context ns key v → services.Answers context ns key w → v = w

variable {ns ms : Namespace} {pass other : Pass} {state later : σ}
variable {literal key value replacement : Text}

theorem writes_of_ne_command (h : ns ≠ .command) : services.writes context ns pass state =
    recorded (services.value? context ns) (services.resolved context pass.input ns) := by
  cases ns with
  | command => exact absurd rfl h
  | _ => rfl

theorem answers_of_ne_command (h : ns ≠ .command) :
    services.Answers context ns key value ↔ services.value? context ns key = some value := by
  cases ns with
  | command => exact absurd rfl h
  | _ => rfl

/-- Whatever a pass holds, a resolver adds what it writes and nothing else. -/
theorem substitution_resolve (ns : Namespace) (pass : Pass) (state : σ) :
    ((services.resolver ns).resolve context pass state).pass.substitution =
      Substitution.recordAll pass.substitution (services.writes context ns pass state) := by
  by_cases hc : ns = .command
  · subst hc
    by_cases hd : context.commandsDisabled = true
    · cases ht : scan pass.input .command <;>
        simp [resolver, commandResolver, hd, refuseCommands, writes, ht, Pass.report]
    · have hwaiting : ∀ token ∈ (scan pass.input .command).filter
          (fun token => !pass.isSubstituted token.literal),
          pass.isSubstituted token.literal = true → token.literal ∈ [] := by
        intro token ht hs
        have hno := (List.mem_filter.mp ht).2
        simp [hs] at hno
      have hrun := (runCommands_eq services.execute context.workspaceFolder [] _ pass state
        hwaiting).symm.trans (runCommands_filter _ [] _ pass state fun _ _ hs => hs)
      simp only [resolver, commandResolver, writes, if_neg hd, ← hrun]
      rfl
  · rw [services.resolve_resolver context pass.input state ns pass rfl (fun h => absurd h hc)]
    cases ns with
    | command => exact absurd rfl hc
    | _ => rfl

theorem exists_token_of_mem_writes (h : (literal, value) ∈ services.writes context ns pass state) :
    ∃ token ∈ scan pass.input ns, token.literal = literal ∧
      services.Answers context ns token.key value := by
  by_cases hc : ns = .command
  · subst hc
    rw [writes] at h
    split at h
    · cases h
    · obtain ⟨token, ht, hl⟩ := mem_succeeded.mp h
      have hscan := (mem_of_mem_firstOccurrences (mem_of_mem_answers ht)).1
      exact ⟨token, List.mem_of_mem_filter hscan, hl, exists_execute_of_mem_answers ht⟩
  · rw [writes_of_ne_command _ _ hc] at h
    obtain ⟨token, ht, hl, hv⟩ := mem_recorded.mp h
    exact ⟨token, services.mem_scan_of_mem_resolved context pass.input ht, hl,
      (services.answers_of_ne_command context hc).mpr hv⟩

theorem not_mem_writes_of_ne (hne : ns ≠ ms)
    (h : (literal, value) ∈ services.writes context ns pass state) :
    (literal, replacement) ∉ services.writes context ms other later := by
  intro ho
  obtain ⟨s, hs, hsl, _⟩ := services.exists_token_of_mem_writes context h
  obtain ⟨t, ht, htl, _⟩ := services.exists_token_of_mem_writes context ho
  exact hne (ns_eq_of_mem_scan hs ht (hsl.trans htl.symm))

theorem eq_of_mem_writes (hsteady : services.Steady context ns)
    (h : (literal, value) ∈ services.writes context ns pass state)
    (ho : (literal, replacement) ∈ services.writes context ns other later) :
    value = replacement := by
  obtain ⟨s, hs, hsl, hv⟩ := services.exists_token_of_mem_writes context h
  obtain ⟨t, ht, htl, hw⟩ := services.exists_token_of_mem_writes context ho
  obtain rfl := eq_of_mem_scan hs ht (hsl.trans htl.symm)
  exact hsteady s.key value replacement hv hw

/-- Only commands can answer a key in more than one way. -/
theorem steady_of_ne_command (h : ns ≠ .command) : services.Steady context ns := by
  intro key v w hv hw
  rw [answers_of_ne_command _ _ h] at hv hw
  exact Option.some.inj (hv.symm.trans hw)

theorem consistent_writes (ns : Namespace) (pass : Pass) (state : σ) :
    Substitution.Consistent (services.writes context ns pass state) := by
  by_cases hc : ns = .command
  · subst hc
    rw [writes]
    split
    · exact fun _ _ _ hv _ => absurd hv List.not_mem_nil
    · exact consistent_succeeded (literals_firstOccurrences_nodup [] _) state
  · intro literal v w hv hw
    exact services.eq_of_mem_writes context (services.steady_of_ne_command context hc) hv hw

/-- Two tokens with one literal, from any two texts, were found by the same spelling and have the
same key; and a scan of a literal finds its own token, next to which only other spellings find any.
So whatever resolvers find in a pass and whatever the state of the world is, those of two namespaces
never write the same literal, and what one of them writes is its answer for the key that the literal
tells: one value only at one turn, and at any two turns if its lookup is steady. -/
theorem literal_tells_writer :
    (∀ g ∈ Grammar.table, ∀ h ∈ Grammar.table, ∀ text other : Text,
      ∀ s ∈ g.scan text, ∀ t ∈ h.scan other, s.literal = t.literal →
        g = h ∧ s.ns = t.ns ∧ s.key = t.key) ∧
    (∀ g ∈ Grammar.table, ∀ text : Text, ∀ token ∈ g.scan text, g.scan token.literal = [token] ∧
      ∃ before after, scan token.literal token.ns = before ++ token :: after ∧
        ∀ other ∈ before ++ after, ∃ h ∈ Grammar.table, h ≠ g ∧ other ∈ h.scan token.literal) ∧
    (∀ ns pass state, ((services.resolver ns).resolve context pass state).pass.substitution =
        Substitution.recordAll pass.substitution (services.writes context ns pass state) ∧
      ∀ literal value, (literal, value) ∈ services.writes context ns pass state →
        ∃ token ∈ scan pass.input ns, token.literal = literal ∧
          services.Answers context ns token.key value) ∧
    (∀ ns ms, ns ≠ ms → ∀ pass other state later literal value replacement,
      (literal, value) ∈ services.writes context ns pass state →
        (literal, replacement) ∉ services.writes context ms other later) ∧
    ∀ ns pass state, Substitution.Consistent (services.writes context ns pass state) ∧
      (services.Steady context ns → ∀ other later literal value replacement,
        (literal, value) ∈ services.writes context ns pass state →
          (literal, replacement) ∈ services.writes context ns other later →
            value = replacement) := by
  refine ⟨?_, ?_, ?_, ?_, ?_⟩
  · intro g hg h hh text other s hs t ht he
    obtain ⟨rfl, rfl⟩ := Grammar.eq_of_mem_scan_of_literal_eq hg hh hs ht he
    exact ⟨rfl, rfl, rfl⟩
  · intro g hg text token ht
    exact ⟨Grammar.scan_literal_of_mem_scan ht, Grammar.exists_scan_literal_eq hg ht⟩
  · intro ns pass state
    refine ⟨services.substitution_resolve context ns pass state, ?_⟩
    intro literal value h
    exact services.exists_token_of_mem_writes context h
  · intro ns ms hne pass other state later literal value replacement h
    exact services.not_mem_writes_of_ne context hne h
  · intro ns pass state
    refine ⟨services.consistent_writes context ns pass state, ?_⟩
    intro hsteady other later literal value replacement h ho
    exact services.eq_of_mem_writes context hsteady h ho

/-- A literal with another one in its key, which stands twice in a text. -/
theorem literal_tells_writer_nested :
    let g : Grammar := ⟨.environment, "$\x7benv:".toList, .line⟩
    let token : Token := g.token "$env\x7bA".toList
    let inner : Token := ⟨"$env\x7bA\x7d".toList, .environment, "A".toList⟩
    let pass : Pass := { input := token.literal ++ token.literal }
    let writes := fun ns => still.writes { vars := .bare } ns pass ()
    g ∈ Grammar.table ∧ token ∈ g.scan pass.input ∧ g.scan token.literal = [token] ∧
      scan token.literal .environment = [token, inner] ∧
      writes .environment = [(token.literal, []), (token.literal, []), (inner.literal, []),
        (inner.literal, [])] ∧
      (∀ replacement, (token.literal, replacement) ∉ writes .parentEnvironment) ∧
      ∀ replacement, (token.literal, replacement) ∈ writes .environment → [] = replacement := by
  intro g token inner pass writes
  obtain ⟨_, hown, _, hothers, hsame⟩ := still.literal_tells_writer { vars := .bare }
  have hg : g ∈ Grammar.table := by decide
  have htoken : token ∈ g.scan pass.input := by decide
  have hwrites : writes .environment = [(token.literal, []), (token.literal, []),
      (inner.literal, []), (inner.literal, [])] := by decide
  have hwrite : (token.literal, []) ∈ writes .environment := by
    rw [hwrites]
    exact List.mem_cons_self
  refine ⟨hg, htoken, (hown g hg _ token htoken).1, by decide, hwrites, fun replacement => ?_,
    fun replacement h => ?_⟩
  · exact hothers .environment .parentEnvironment (by decide) pass pass () () _ _ _ hwrite
  · exact (hsame .environment pass ()).2 (still.steady_of_ne_command _ (by decide)) pass () _ _ _
      hwrite h

end Services
end Placeholders
