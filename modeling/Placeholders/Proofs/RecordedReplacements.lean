import Mathlib.Data.List.Induction
import Mathlib.Data.List.Nodup
import Placeholders.Substitution
import Placeholders.Proofs.ScannedTokens

/-! What a substitution holds after replacements were recorded one by one, and what a sweep does
with literals of placeholders: at most one of them applies at a place, so the sweep only looks the
literal up that can be read there. -/

namespace Placeholders

def lastValue? (entries : List (Text × Text)) (key : Text) : Option Text :=
  entries.reverse.lookup key

theorem lastValue?_eq_none_iff {entries : List (Text × Text)} {key : Text} :
    lastValue? entries key = none ↔ ∀ value, (key, value) ∉ entries := by
  rw [lastValue?, List.lookup_eq_none_iff]
  constructor
  · intro h value hm
    simpa using h (key, value) (List.mem_reverse.mpr hm)
  · rintro h ⟨k, value⟩ hm
    have hne : key ≠ k := by
      rintro rfl
      exact h value (List.mem_reverse.mp hm)
    simpa using hne

theorem Table.get?_ofList (entries : List (Text × Text)) (key : Text) :
    (Table.ofList entries).get? key = lastValue? entries key := by
  induction entries using List.reverseRecOn with
  | nil => rfl
  | append_singleton entries entry ih =>
    obtain ⟨k, value⟩ := entry
    have hinsert : ofList (entries ++ [(k, value)]) = (ofList entries).insert k value := by
      simp [ofList]
    rw [hinsert, get?_insert, ih, lastValue?, lastValue?, List.reverse_append,
      List.reverse_singleton, List.singleton_append, List.lookup_cons]
    by_cases h : key = k
    · simp [h]
    · simp [h, beq_eq_false_iff_ne.mpr h]

namespace Table
variable {α : Type}

theorem nodup_keys (t : Table α) : t.keys.Nodup := by
  refine List.pairwise_map.mpr (t.ascending.imp ?_)
  intro a b h he
  rw [he, Text.before_irrefl] at h
  cases h

theorem mem_entries_iff {t : Table α} {key : Text} {value : α} :
    (key, value) ∈ t.entries ↔ t.get? key = some value := by
  obtain ⟨entries, ascending⟩ := t
  simp only [get?]
  induction entries with
  | nil => simp
  | cons head entries ih =>
    obtain ⟨k, v⟩ := head
    obtain ⟨hk, hrest⟩ := List.pairwise_cons.mp ascending
    rw [List.mem_cons, ih hrest, List.lookup_cons]
    by_cases he : key = k
    · subst he
      simp [lookup_eq_none_of_before hk, eq_comm]
    · simp [he, beq_eq_false_iff_ne.mpr he]

end Table

namespace Substitution

def recordAll (s : Substitution) (entries : List (Text × Text)) : Substitution :=
  entries.foldl (fun s entry => s.insert entry.1 entry.2) s

@[simp] theorem recordAll_nil (s : Substitution) : s.recordAll [] = s := rfl

@[simp] theorem recordAll_cons (s : Substitution) (entry : Text × Text)
    (entries : List (Text × Text)) :
    s.recordAll (entry :: entries) = recordAll (s.insert entry.1 entry.2) entries := rfl

theorem recordAll_append (s : Substitution) (first second : List (Text × Text)) :
    s.recordAll (first ++ second) = (s.recordAll first).recordAll second :=
  List.foldl_append

theorem get?_recordAll_of_forall_ne {s : Substitution} {entries : List (Text × Text)}
    {literal : Text} (h : ∀ entry ∈ entries, entry.1 ≠ literal) :
    (s.recordAll entries).get? literal = s.get? literal := by
  induction entries generalizing s with
  | nil => rfl
  | cons entry entries ih =>
    obtain ⟨he, hr⟩ := List.forall_mem_cons.mp h
    rw [recordAll_cons, ih hr, Table.get?_insert_of_ne (Ne.symm he)]

private theorem get?_recordAll_of_mem {s : Substitution} {entries : List (Text × Text)}
    {literal : Text} (h : literal ∈ entries.map Prod.fst) :
    ∃ value, (literal, value) ∈ entries ∧ (s.recordAll entries).get? literal = some value := by
  induction entries generalizing s with
  | nil => cases h
  | cons first entries ih =>
    by_cases hl : literal ∈ entries.map Prod.fst
    · obtain ⟨value, hv, hg⟩ := ih (s := s.insert first.1 first.2) hl
      exact ⟨value, List.mem_cons_of_mem _ hv, hg⟩
    · obtain rfl := (List.mem_cons.mp h).resolve_right hl
      refine ⟨first.2, List.mem_cons_self, ?_⟩
      rw [recordAll_cons, get?_recordAll_of_forall_ne, Table.get?_insert_self]
      intro e he hn
      exact hl (hn ▸ List.mem_map_of_mem he)

/-- Entries for one literal agree; the order of recording then does not matter. -/
def Consistent (entries : List (Text × Text)) : Prop :=
  ∀ literal v w, (literal, v) ∈ entries → (literal, w) ∈ entries → v = w

/-- Of consistent entries a substitution holds exactly those recorded. -/
theorem get?_recordAll_eq_some_iff {entries : List (Text × Text)} (h : Consistent entries)
    {literal value : Text} :
    (recordAll Table.empty entries).get? literal = some value ↔ (literal, value) ∈ entries := by
  constructor
  · intro hg
    by_cases hm : literal ∈ entries.map Prod.fst
    · obtain ⟨w, hw, hgw⟩ := get?_recordAll_of_mem (s := Table.empty) hm
      rw [hg] at hgw
      rwa [Option.some.inj hgw]
    · have hne : ∀ entry ∈ entries, entry.1 ≠ literal :=
        fun entry he hn => hm (hn ▸ List.mem_map_of_mem he)
      rw [get?_recordAll_of_forall_ne hne] at hg
      cases hg
  · intro hm
    obtain ⟨w, hw, hg⟩ := get?_recordAll_of_mem (s := Table.empty)
      (List.mem_map_of_mem (f := Prod.fst) hm)
    rw [hg, h literal value w hm hw]

theorem mem_effective {s : Substitution} {literal replacement : Text} :
    (literal, replacement) ∈ s.effective ↔
      s.get? literal = some replacement ∧ literal ≠ replacement := by
  simp [effective, Table.mem_entries_iff]

theorem effective_eq_nil_iff {s : Substitution} :
    s.effective = [] ↔ ∀ literal replacement, s.get? literal = some replacement →
      replacement = literal := by
  simp only [List.eq_nil_iff_forall_not_mem, Prod.forall, mem_effective, not_and, not_not]
  exact ⟨fun h l r hg => (h l r hg).symm, fun h l r hg => (h l r hg).symm⟩

theorem nodup_effective (s : Substitution) : (s.effective.map Prod.fst).Nodup :=
  (Table.nodup_keys s).sublist (List.filter_sublist.map _)

/-- An effective entry is looked up among all, where it is the only one of its literal. -/
theorem lookup_effective_eq_some_iff {s : Substitution} {literal replacement : Text} :
    s.effective.lookup literal = some replacement ↔
      s.get? literal = some replacement ∧ literal ≠ replacement := by
  rw [← mem_effective, List.lookup_eq_some_iff]
  constructor
  · rintro ⟨first, second, he, _⟩
    rw [he]
    simp
  · intro hm
    obtain ⟨first, second, he⟩ := List.append_of_mem hm
    refine ⟨first, second, he, fun entry hentry => ?_⟩
    have hn := nodup_effective s
    rw [he, List.map_append, List.nodup_append] at hn
    have hne := hn.2.2 entry.1 (List.mem_map_of_mem hentry) literal (by simp)
    simp [Ne.symm hne]

theorem apply_of_effective_eq_nil {s : Substitution} (h : s.effective = []) (text : Text) :
    s.apply text = ⟨text, false⟩ := by
  rw [apply, h]

theorem apply_of_effective_ne_nil {s : Substitution} (h : s.effective ≠ []) (text : Text) :
    s.apply text = ⟨sweep s.effective text, true⟩ := by
  rw [apply]
  split
  · next hn => exact absurd hn h
  · rfl

theorem changed_apply_eq_false_iff {s : Substitution} {text : Text} :
    (s.apply text).changed = false ↔ s.effective = [] := by
  by_cases h : s.effective = []
  · simp [apply_of_effective_eq_nil h, h]
  · simp [apply_of_effective_ne_nil h, h]

theorem result_apply_of_unchanged {s : Substitution} {text : Text}
    (h : (s.apply text).changed = false) : (s.apply text).result = text := by
  rw [apply_of_effective_eq_nil (changed_apply_eq_false_iff.mp h)]

/-- A text in which no literal of the bindings occurs stays as it is. -/
theorem sweep_eq_self {bindings : List (Text × Text)} {text : Text}
    (h : ∀ binding ∈ bindings, ¬ binding.1 <:+: text) : sweep bindings text = text := by
  induction text with
  | nil => rfl
  | cons c text ih =>
    have hnone : longestAt bindings (c :: text) = none := by
      rw [longestAt_eq_none_iff]
      intro binding hm ha
      exact h binding hm (applies_iff.mp ha).2.isInfix
    have hrest : ∀ binding ∈ bindings, ¬ binding.1 <:+: text :=
      fun binding hm hi => h binding hm (hi.trans (List.suffix_cons c text).isInfix)
    rw [sweep_of_longestAt_eq_none hnone, ih hrest]

theorem unescape_eq_self {text : Text} (h : ¬ Grammar.dollarLiteral <:+: text) :
    unescape text = text :=
  sweep_eq_self fun _ hm => List.mem_singleton.mp hm ▸ h

theorem result_apply (s : Substitution) (text : Text) :
    (s.apply text).result = sweep s.effective text := by
  by_cases h : s.effective = []
  · rw [apply_of_effective_eq_nil h, h, sweep_eq_self (by simp)]
  · rw [apply_of_effective_ne_nil h]

/-- Only literals that are read as placeholders of the table are replaced. -/
def LiteralsOnly (bindings : List (Text × Text)) : Prop :=
  ∀ binding ∈ bindings, ∃ g ∈ Grammar.table, ∃ key, g.keys.Admits key ∧ binding.1 = g.literal key

theorem literalsOnly_escape (replacement : Text) :
    LiteralsOnly [(Grammar.dollarLiteral, replacement)] := by
  intro binding hm
  rw [List.mem_singleton.mp hm]
  exact ⟨Grammar.plain, Grammar.plain_mem_table, _, Grammar.admits_dollarKey, rfl⟩

private theorem literal_of_applies {bindings : List (Text × Text)} (hb : LiteralsOnly bindings)
    {binding : Text × Text} (hm : binding ∈ bindings) {text : Text}
    (ha : applies binding text = true) :
    ∃ g ∈ Grammar.table, ∃ key, g.key? text = some key ∧ binding.1 = g.literal key := by
  obtain ⟨g, hg, key, hk, he⟩ := hb binding hm
  exact ⟨g, hg, key, Grammar.key?_eq_some_iff.mpr ⟨hk, he ▸ (applies_iff.mp ha).2⟩, he⟩

/-- Which binding is chosen depends on where each of them applies. -/
theorem longestAt_congr {bindings : List (Text × Text)} {text other : Text}
    (h : ∀ binding ∈ bindings, applies binding text = applies binding other) :
    longestAt bindings text = longestAt bindings other := by
  induction bindings with
  | nil => rfl
  | cons binding bindings ih =>
    obtain ⟨hfirst, hrest⟩ := List.forall_mem_cons.mp h
    rw [longestAt, longestAt, ih hrest, hfirst]

theorem longestAt_eq_none {bindings : List (Text × Text)} (hb : LiteralsOnly bindings) {text : Text}
    (h : ∀ g ∈ Grammar.table, g.key? text = none) : longestAt bindings text = none := by
  rw [longestAt_eq_none_iff]
  intro binding hm ha
  obtain ⟨g, hg, key, hk, _⟩ := literal_of_applies hb hm ha
  rw [h g hg] at hk
  cases hk

/-- Where a placeholder can be read only its own literal applies. -/
theorem longestAt_literal {bindings : List (Text × Text)} (hb : LiteralsOnly bindings)
    (hn : (bindings.map Prod.fst).Nodup) {g : Grammar} (hg : g ∈ Grammar.table) {key text : Text}
    (hk : g.key? text = some key) :
    longestAt bindings text =
      (bindings.lookup (g.literal key)).map fun value => (g.literal key, value) := by
  have own (binding : Text × Text) (hm : binding ∈ bindings) (ha : applies binding text = true) :
      binding.1 = g.literal key := by
    obtain ⟨e, he, l, hl, hb⟩ := literal_of_applies hb hm ha
    obtain ⟨rfl, rfl⟩ := Grammar.eq_of_key?_eq_some hg he hk hl
    exact hb
  cases hl : bindings.lookup (g.literal key) with
  | none =>
    rw [Option.map_none, longestAt_eq_none_iff]
    intro binding hm ha
    have := List.lookup_eq_none_iff.mp hl binding hm
    simp [own binding hm ha] at this
  | some value =>
    obtain ⟨first, second, rfl, hfirst⟩ := List.lookup_eq_some_iff.mp hl
    have hm : (g.literal key, value) ∈ first ++ (g.literal key, value) :: second := by simp
    have happ : applies (g.literal key, value) text = true :=
      applies_iff.mpr ⟨by simp [Grammar.literal], (Grammar.key?_eq_some_iff.mp hk).2⟩
    cases hlong : longestAt (first ++ (g.literal key, value) :: second) text with
    | none => exact absurd happ (longestAt_eq_none_iff.mp hlong _ hm)
    | some best =>
      obtain ⟨hbest, hba⟩ := of_longestAt_eq_some hlong
      rw [List.inj_on_of_nodup_map hn hbest hm (own best hbest hba)]
      rfl

/-- Where nothing that is chosen in a text depends on what comes behind it, the two are swept one
after the other. -/
theorem sweepFrom_append_of_longestAt {bindings : List (Text × Text)} {text back : Text}
    {skip : Nat} (hs : skip ≤ text.length)
    (h : ∀ part, part ≠ [] → part <:+ text →
      longestAt bindings (part ++ back) = longestAt bindings part) :
    sweepFrom bindings skip (text ++ back) =
      sweepFrom bindings skip text ++ sweep bindings back := by
  induction text generalizing skip with
  | nil =>
    obtain rfl : skip = 0 := Nat.le_zero.mp hs
    rfl
  | cons c text ih =>
    have hrest (part : Text) (hne : part ≠ []) (hp : part <:+ text) :=
      h part hne (hp.trans (List.suffix_cons c text))
    cases skip with
    | succ skip => exact ih (Nat.le_of_succ_le_succ hs) hrest
    | zero =>
      rw [List.cons_append, sweepFrom, ← List.cons_append,
        h _ (List.cons_ne_nil c text) List.suffix_rfl, sweepFrom]
      cases hl : longestAt bindings (c :: text) with
      | none => exact congrArg (c :: ·) (ih (Nat.zero_le _) hrest)
      | some best =>
        have hlen := (applies_iff.mp (of_longestAt_eq_some hl).2).2.length_le
        rw [List.length_cons] at hlen
        show best.2 ++ _ = best.2 ++ _ ++ _
        rw [ih (by omega) hrest, List.append_assoc]

theorem sweep_append {bindings : List (Text × Text)} (hb : LiteralsOnly bindings) {text : Text}
    (h : '$' ∉ text) (rest : Text) :
    sweep bindings (text ++ rest) = text ++ sweep bindings rest := by
  induction text with
  | nil => rfl
  | cons c text ih =>
    obtain ⟨hc, ht⟩ := not_or.mp (fun hm => h (List.mem_cons.mpr hm))
    have hnone : longestAt bindings (c :: (text ++ rest)) = none :=
      longestAt_eq_none hb fun g hg => Grammar.key?_cons_of_ne hg (Ne.symm hc) _
    rw [List.cons_append, sweep_of_longestAt_eq_none hnone, ih ht, List.cons_append]

/-- A literal whose key has no dollar sign is replaced whole, or stays as it is. -/
theorem sweep_literal_append {bindings : List (Text × Text)} (hb : LiteralsOnly bindings)
    (hn : (bindings.map Prod.fst).Nodup) {g : Grammar} (hg : g ∈ Grammar.table) {key : Text}
    (hk : g.keys.Admits key) (hd : '$' ∉ key) (rest : Text) :
    sweep bindings (g.literal key ++ rest) =
      (bindings.lookup (g.literal key)).getD (g.literal key) ++ sweep bindings rest := by
  have hlong := longestAt_literal hb hn hg (Grammar.key?_literal_append hk rest)
  cases hl : bindings.lookup (g.literal key) with
  | some value =>
    rw [hl, Option.map_some] at hlong
    exact sweep_of_longestAt_eq_some hlong rfl
  | none =>
    obtain ⟨tail, ho, htail⟩ := Grammar.opening_eq hg
    have hlit : g.literal key = '$' :: (tail ++ key ++ ['}']) := by
      rw [Grammar.literal, ho, List.cons_append, List.cons_append]
    rw [hl, Option.map_none, hlit, List.cons_append] at hlong
    rw [Option.getD_none, hlit, List.cons_append, sweep_of_longestAt_eq_none hlong,
      sweep_append hb (by simp [htail, hd]), List.cons_append]

end Substitution
end Placeholders
