import Placeholders.Proofs.FailingLookups

/-! The order of the resolvers. No resolver reads what another one records, and each does all it can
even where others fail, so in whatever order the six take their turns, a pass holds the same in the
end; only the problems stand in the order of the turns. -/

namespace Placeholders

structure Turn where
  ns : Namespace
  fault : Option Fault
  /-- The problems that the resolver recorded. -/
  problems : ProblemList
  deriving DecidableEq

structure Turns (σ : Type) where
  turns : List Turn
  pass : Pass
  state : σ

namespace Services
variable {σ : Type} (services : Services σ) (context : Context)

/-- Lets the resolvers of namespaces take their turns in an order, each of them whatever became of
those before it. -/
def takeTurns : List Namespace → Pass → σ → Turns σ
  | [], pass, state => ⟨[], pass, state⟩
  | ns :: order, pass, state =>
    let resolved := (services.resolver ns).resolve context pass state
    let later := takeTurns order resolved.pass resolved.state
    let turn := ⟨ns, resolved.fault, resolved.pass.problems.drop pass.problems.length⟩
    { later with turns := turn :: later.turns }

variable (text : Text) (state : σ)

private def stateBehind (namespaces : List Namespace) : σ :=
  if .command ∈ namespaces then (services.commandAnswers context text state).2 else state

private def turnOf (ns : Namespace) : Turn :=
  ⟨ns, services.faultIn? context text ns, (services.part context text state ns).problems⟩

/-- Before its own turn a resolver finds the world as it was at the start, if it asks it at all. -/
private theorem part_stateBehind {namespaces : List Namespace} {ns : Namespace}
    (h : ns ∉ namespaces) :
    services.part context text (services.stateBehind context text state namespaces) ns =
      services.part context text state ns := by
  cases ns with
  | command => rw [stateBehind, if_neg h]
  | _ => rfl

private theorem after_stateBehind {namespaces : List Namespace} {ns : Namespace}
    (h : ns ∉ namespaces) :
    services.after context text (services.stateBehind context text state namespaces) ns =
      services.stateBehind context text state (namespaces ++ [ns]) := by
  cases ns with
  | command => simp [after, stateBehind, h]
  | _ => simp [after, stateBehind]

/-- Each resolver does its own, and the pass holds the parts of those that had their turns. -/
private theorem takeTurns_afterParts {earlier order : List Namespace}
    (h : (earlier ++ order).Nodup) :
    services.takeTurns context order (services.afterParts context text state earlier)
        (services.stateBehind context text state earlier) =
      { turns := order.map (services.turnOf context text state)
        pass := services.afterParts context text state (earlier ++ order)
        state := services.stateBehind context text state (earlier ++ order) } := by
  induction order generalizing earlier with
  | nil => simp [takeTurns]
  | cons ns order ih =>
    have hns : ns ∉ earlier := fun hm =>
      (List.nodup_append.mp h).2.2 ns hm ns List.mem_cons_self rfl
    have hresolve := services.resolve_resolver context text
      (services.stateBehind context text state earlier) ns
      (services.afterParts context text state earlier)
      (services.input_afterParts context text state earlier)
      (fun hc token ht => services.not_isSubstituted_afterParts context text state hns (hc ▸ ht))
    rw [part_stateBehind _ _ _ _ hns, after_stateBehind _ _ _ _ hns, absorb_afterParts] at hresolve
    have hblock : (services.afterParts context text state (earlier ++ [ns])).problems.drop
        (services.afterParts context text state earlier).problems.length =
          (services.part context text state ns).problems := by
      simp [problems_afterParts]
    have hrest := @ih (earlier ++ [ns]) (by rwa [List.append_assoc])
    rw [List.append_assoc] at hrest
    simp only [takeTurns, hresolve, hblock, hrest]
    rfl

private theorem takeTurns_of_nodup {order : List Namespace} (h : order.Nodup) :
    services.takeTurns context order { input := text } state =
      { turns := order.map (services.turnOf context text state)
        pass := services.afterParts context text state order
        state := services.stateBehind context text state order } :=
  services.takeTurns_afterParts context text state (List.nil_append order ▸ h)

/-- What a pass holds depends on which namespaces had their turns, not on when. -/
private theorem substitution_afterParts_congr {first second : List Namespace}
    (h : first.Perm second) :
    (services.afterParts context text state first).substitution =
      (services.afterParts context text state second).substitution := by
  apply Table.ext_get?
  intro literal
  apply Option.ext
  intro value
  simp only [get?_afterParts, h.mem_iff]

/-- Only unknown variables and commands are recorded as problems. -/
private theorem problems_part_eq_nil {ns : Namespace} (hv : ns ≠ .variable) (hc : ns ≠ .command) :
    (services.part context text state ns).problems = [] := by
  cases ns with
  | «variable» => exact absurd rfl hv
  | command => exact absurd rfl hc
  | _ => rfl

/-- In any order of all namespaces the two that can record problems come one after the other. -/
private theorem flatMap_of_perm_all {α : Type} {order : List Namespace}
    (h : order.Perm Namespace.all) {block : Namespace → List α}
    (hb : ∀ ns, ns ≠ .variable → ns ≠ .command → block ns = []) :
    order.flatMap block = block .variable ++ block .command ∨
      order.flatMap block = block .command ++ block .variable := by
  let recording : Namespace → Bool := fun ns => ns = .variable ∨ ns = .command
  have hfilter : order.flatMap block = (order.filter recording).flatMap block := by
    clear h
    induction order with
    | nil => rfl
    | cons ns order ih =>
      by_cases hr : recording ns = true
      · rw [List.filter_cons_of_pos hr, List.flatMap_cons, List.flatMap_cons, ih]
      · have hno : ns ≠ .variable ∧ ns ≠ .command := by simpa [recording] using hr
        rw [List.filter_cons_of_neg hr, List.flatMap_cons, hb ns hno.1 hno.2, List.nil_append, ih]
  have hpair : (order.filter recording).Perm [.variable, .command] := h.filter recording
  obtain ⟨first, second, he⟩ := List.length_eq_two.mp hpair.length_eq
  rw [he] at hpair hfilter
  have hnodup : first ≠ second := by simpa using hpair.nodup_iff.mpr (by decide)
  have hfirst : first = .variable ∨ first = .command := by
    simpa using hpair.subset List.mem_cons_self
  have hsecond : second = .variable ∨ second = .command := by
    simpa using hpair.subset (List.mem_cons_of_mem first List.mem_cons_self)
  rw [hfilter]
  rcases hfirst with rfl | rfl <;> rcases hsecond with rfl | rfl
  · exact absurd rfl hnodup
  · exact .inl (by simp)
  · exact .inr (by simp)
  · exact absurd rfl hnodup

/-- The six resolvers take their turns on a fresh pass in any two orders. Each fails or succeeds in
both alike and records the same problems; the pass holds the same replacements, so it is applied
alike, and flags the same token; and the world ends up the same, with all that it keeps of the
commands called. The problems stand in the order of the turns, in which only those of variables and
of commands can change places. -/
theorem takeTurns_perm {first second : List Namespace} (hf : first.Perm Namespace.all)
    (hs : second.Perm Namespace.all) :
    let one := services.takeTurns context first { input := text } state
    let other := services.takeTurns context second { input := text } state
    one.turns.map (·.ns) = first ∧ other.turns.map (·.ns) = second ∧
    one.turns.Perm other.turns ∧
    one.pass.substitution = other.pass.substitution ∧
    one.pass.finish = { other.pass.finish with problems := one.pass.problems } ∧
    one.state = other.state ∧
    one.pass.problems = one.turns.flatMap (·.problems) ∧
    other.pass.problems = other.turns.flatMap (·.problems) ∧
    let unknowns := unknown context.vars.get? (scan text .variable)
    let failures := services.commandProblems context text state
    ∀ problems ∈ [one.pass.problems, other.pass.problems],
      problems = unknowns ++ failures ∨ problems = failures ++ unknowns := by
  have hperm : first.Perm second := hf.trans hs.symm
  have hall : Namespace.all.Nodup := by decide
  have hsub := services.substitution_afterParts_congr context text state hperm
  intro one other
  have hone : one = _ := services.takeTurns_of_nodup context text state (hf.nodup_iff.mpr hall)
  have hother : other = _ := services.takeTurns_of_nodup context text state (hs.nodup_iff.mpr hall)
  clear_value one other
  subst hone hother
  have hns : Turn.ns ∘ services.turnOf context text state = id := rfl
  refine ⟨by rw [List.map_map, hns, List.map_id], by rw [List.map_map, hns, List.map_id],
    hperm.map _, hsub, ?_, ?_, ?_, ?_, ?_⟩
  · simp only [Pass.finish, hsub, input_afterParts, circular_afterParts, hperm.mem_iff]
  · simp only [stateBehind, hperm.mem_iff]
  · rw [problems_afterParts, List.flatMap_map]
    rfl
  · rw [problems_afterParts, List.flatMap_map]
    rfl
  · intro unknowns failures problems hm
    have hblocks {order : List Namespace} (ho : order.Perm Namespace.all) :=
      flatMap_of_perm_all ho fun ns hv hc => services.problems_part_eq_nil context text state hv hc
    simp only [problems_afterParts, List.mem_cons, List.not_mem_nil, or_false] at hm
    rcases hm with rfl | rfl
    · exact hblocks hf
    · exact hblocks hs

/-- Turned round, the order has the command run first and the failing lookup come later. -/
theorem takeTurns_reverse :
    let text := "$\x7bnone\x7d$env\x7bBAD\x7d$\x7bcommand:c\x7d".toList
    let one := counting.takeTurns { vars := .bare } Namespace.all { input := text } 0
    let other := counting.takeTurns { vars := .bare } Namespace.all.reverse { input := text } 0
    (Namespace.all.Perm Namespace.all ∧ Namespace.all.reverse.Perm Namespace.all) ∧
      one.state = 1 ∧ other.state = 1 ∧ one.turns.Perm other.turns ∧
      one.pass.problems = [⟨.invalidReference, "$\x7bnone\x7d".toList⟩,
        ⟨.commandExecutionFailed, "$\x7bcommand:c\x7d".toList⟩] ∧
      other.pass.problems = [⟨.commandExecutionFailed, "$\x7bcommand:c\x7d".toList⟩,
        ⟨.invalidReference, "$\x7bnone\x7d".toList⟩] := by
  intro text one other
  have hf := List.Perm.refl Namespace.all
  have hs := List.reverse_perm Namespace.all
  obtain ⟨_, _, hturns, _, _, hstate, _⟩ :=
    counting.takeTurns_perm { vars := .bare } text 0 hf hs
  have hone : one.state = 1 := by decide
  exact ⟨⟨hf, hs⟩, hone, hstate.symm.trans hone, hturns, by decide, by decide⟩

end Services
end Placeholders
