import Placeholders.Text.Basic

/-! Tables from texts to values, kept in ascending order of their keys, each key once. A table is
determined by what it answers (`Table.ext_get?`), so two tables built in different ways are equal
as soon as they agree on every key. -/

namespace Placeholders

namespace Text

/-- Lexicographic order of texts by code point; the order in which keys are listed. -/
def before : Text → Text → Bool
  | _, [] => false
  | [], _ :: _ => true
  | c :: s, d :: t => c < d || (c = d && before s t)

theorem before_irrefl (s : Text) : before s s = false := by
  induction s with
  | nil => rfl
  | cons c s ih => simp [before, ih]

theorem before_trans {s t u : Text} (h₁ : before s t) (h₂ : before t u) : before s u := by
  induction s generalizing t u with
  | nil =>
    cases u with
    | nil => cases t <;> simp [before] at h₂
    | cons _ _ => rfl
  | cons c s ih =>
    cases t with
    | nil => simp [before] at h₁
    | cons d t =>
      cases u with
      | nil => simp [before] at h₂
      | cons e u =>
        simp only [before, Bool.or_eq_true, Bool.and_eq_true, decide_eq_true_eq] at *
        rcases h₁ with h₁ | ⟨rfl, h₁⟩ <;> rcases h₂ with h₂ | ⟨rfl, h₂⟩
        · exact .inl (Char.lt_trans h₁ h₂)
        · exact .inl h₁
        · exact .inl h₂
        · exact .inr ⟨rfl, ih h₁ h₂⟩

/-- Of two different texts one stands before the other. -/
theorem before_or_eq (s t : Text) : before s t ∨ s = t ∨ before t s := by
  induction s generalizing t with
  | nil => cases t <;> simp [before]
  | cons c s ih =>
    cases t with
    | nil => simp [before]
    | cons d t =>
      simp only [before, Bool.or_eq_true, Bool.and_eq_true, decide_eq_true_eq, List.cons.injEq]
      by_cases hcd : c < d
      · exact .inl (.inl hcd)
      · by_cases hdc : d < c
        · exact .inr (.inr (.inl hdc))
        · have hc : c = d := Char.le_antisymm (Char.not_lt.mp hdc) (Char.not_lt.mp hcd)
          subst hc
          rcases ih t with h | h | h <;> simp [h]

end Text

@[ext] structure Table (α : Type) where
  /-- The entries in ascending order of their keys. -/
  entries : List (Text × α)
  /-- Each key stands before the keys of all later entries. -/
  ascending : entries.Pairwise fun a b => Text.before a.1 b.1

namespace Table

variable {α β : Type}

instance [DecidableEq α] : DecidableEq (Table α) := fun s t =>
  decidable_of_iff (s.entries = t.entries) (Table.ext_iff).symm

def empty : Table α := ⟨[], .nil⟩

instance : EmptyCollection (Table α) := ⟨empty⟩

instance : Inhabited (Table α) := ⟨empty⟩

def get? (t : Table α) (key : Text) : Option α := t.entries.lookup key

def contains (t : Table α) (key : Text) : Bool := (t.get? key).isSome

def size (t : Table α) : Nat := t.entries.length

def isEmpty (t : Table α) : Bool := t.entries.isEmpty

/-- Puts an entry in its place among ascending entries; a present key takes the new value. -/
def place (key : Text) (value : α) : List (Text × α) → List (Text × α)
  | [] => [(key, value)]
  | (k, v) :: entries =>
    if key = k then (key, value) :: entries
    else if Text.before key k then (key, value) :: (k, v) :: entries
    else (k, v) :: place key value entries

theorem key_of_mem_place {key : Text} {value : α} {entries : List (Text × α)} {e : Text × α}
    (h : e ∈ place key value entries) : e.1 = key ∨ e ∈ entries := by
  induction entries with
  | nil => simp only [place, List.mem_singleton] at h; exact .inl (by rw [h])
  | cons head entries ih =>
    obtain ⟨k, v⟩ := head
    simp only [place] at h
    split at h
    · rcases List.mem_cons.mp h with rfl | h
      · exact .inl rfl
      · exact .inr (List.mem_cons_of_mem _ h)
    · split at h
      · rcases List.mem_cons.mp h with rfl | h
        · exact .inl rfl
        · exact .inr h
      · rcases List.mem_cons.mp h with rfl | h
        · exact .inr List.mem_cons_self
        · exact (ih h).imp id (List.mem_cons_of_mem _)

theorem place_ascending (key : Text) (value : α) {entries : List (Text × α)}
    (h : entries.Pairwise fun a b => Text.before a.1 b.1) :
    (place key value entries).Pairwise fun a b => Text.before a.1 b.1 := by
  induction entries with
  | nil => simp [place]
  | cons head entries ih =>
    obtain ⟨k, v⟩ := head
    obtain ⟨hk, hrest⟩ := List.pairwise_cons.mp h
    simp only [place]
    split
    · next heq => subst heq; exact List.pairwise_cons.mpr ⟨hk, hrest⟩
    · next hne =>
      split
      · next hlt =>
        refine List.pairwise_cons.mpr ⟨fun e he => ?_, h⟩
        rcases List.mem_cons.mp he with rfl | he
        · exact hlt
        · exact Text.before_trans hlt (hk e he)
      · next hlt =>
        refine List.pairwise_cons.mpr ⟨fun e he => ?_, ih hrest⟩
        rcases key_of_mem_place he with heq | he
        · rcases Text.before_or_eq key k with h | h | h
          · exact absurd h hlt
          · exact absurd h hne
          · simpa [heq] using h
        · exact hk e he

def insert (t : Table α) (key : Text) (value : α) : Table α :=
  ⟨place key value t.entries, place_ascending key value t.ascending⟩

/-- The table of a list of entries; of several entries for a key the last one counts. -/
def ofList (entries : List (Text × α)) : Table α :=
  entries.foldl (fun t (key, value) => t.insert key value) empty

def filterKeys (p : Text → Bool) (t : Table α) : Table α :=
  ⟨t.entries.filter fun entry => p entry.1, t.ascending.filter _⟩

def erase (t : Table α) (key : Text) : Table α := t.filterKeys (· != key)

def keys (t : Table α) : List Text := t.entries.map (·.1)

@[simp] theorem get?_empty (key : Text) : (empty : Table α).get? key = none := rfl

theorem lookup_place_self (key : Text) (value : α) (entries : List (Text × α)) :
    (place key value entries).lookup key = some value := by
  induction entries with
  | nil => simp [place]
  | cons head entries ih =>
    obtain ⟨k, v⟩ := head
    simp only [place]
    split
    · simp
    · split
      · simp
      · next hne _ => simp [List.lookup_cons, beq_eq_false_iff_ne.mpr hne, ih]

theorem lookup_place_of_ne {key other : Text} (h : other ≠ key) (value : α)
    (entries : List (Text × α)) :
    (place key value entries).lookup other = entries.lookup other := by
  induction entries with
  | nil => simp [place, List.lookup_cons, beq_eq_false_iff_ne.mpr h]
  | cons head entries ih =>
    obtain ⟨k, v⟩ := head
    simp only [place]
    split
    · next heq => subst heq; simp [List.lookup_cons, beq_eq_false_iff_ne.mpr h]
    · split
      · simp [List.lookup_cons, beq_eq_false_iff_ne.mpr h]
      · simp only [List.lookup_cons]
        split
        · rfl
        · exact ih

/-- The value last written is the one that is found. -/
@[simp] theorem get?_insert_self (t : Table α) (key : Text) (value : α) :
    (t.insert key value).get? key = some value :=
  lookup_place_self key value t.entries

theorem get?_insert_of_ne {key other : Text} (h : other ≠ key) (t : Table α) (value : α) :
    (t.insert key value).get? other = t.get? other :=
  lookup_place_of_ne h value t.entries

theorem get?_insert (t : Table α) (key other : Text) (value : α) :
    (t.insert key value).get? other = if other = key then some value else t.get? other := by
  split
  · next h => subst h; simp
  · next h => exact get?_insert_of_ne h t value

/-- Only keys of the kind keep their values. -/
theorem get?_filterKeys (p : Text → Bool) (t : Table α) (key : Text) :
    (t.filterKeys p).get? key = if p key then t.get? key else none := by
  obtain ⟨entries, ascending⟩ := t
  simp only [filterKeys, get?]
  clear ascending
  induction entries with
  | nil => simp
  | cons head entries ih =>
    obtain ⟨k, v⟩ := head
    by_cases hkey : key = k
    · subst hkey
      by_cases hp : p key
      · simp [List.filter, hp]
      · simpa [List.filter, hp] using ih
    · by_cases hp : p k
      · simpa [List.filter, hp, List.lookup_cons, beq_eq_false_iff_ne.mpr hkey] using ih
      · simpa [List.filter, hp, List.lookup_cons, beq_eq_false_iff_ne.mpr hkey] using ih

@[simp] theorem get?_erase_self (t : Table α) (key : Text) : (t.erase key).get? key = none := by
  simp [erase, get?_filterKeys]

theorem lookup_eq_none_of_before {key : Text} {entries : List (Text × α)}
    (h : ∀ e ∈ entries, Text.before key e.1) : entries.lookup key = none := by
  induction entries with
  | nil => rfl
  | cons head entries ih =>
    obtain ⟨k, v⟩ := head
    have hk := h (k, v) List.mem_cons_self
    have hne : key ≠ k := by
      rintro rfl
      simp [Text.before_irrefl] at hk
    simp [List.lookup_cons, beq_eq_false_iff_ne.mpr hne,
      ih fun e he => h e (List.mem_cons_of_mem _ he)]

theorem entries_eq_of_lookup_eq {s t : List (Text × α)}
    (hs : s.Pairwise fun a b => Text.before a.1 b.1)
    (ht : t.Pairwise fun a b => Text.before a.1 b.1)
    (h : ∀ key, s.lookup key = t.lookup key) : s = t := by
  induction s generalizing t with
  | nil =>
    cases t with
    | nil => rfl
    | cons head t =>
      obtain ⟨k, v⟩ := head
      have := h k
      simp at this
  | cons head s ih =>
    obtain ⟨k, v⟩ := head
    obtain ⟨hk, hs⟩ := List.pairwise_cons.mp hs
    cases t with
    | nil =>
      have := h k
      simp at this
    | cons head t =>
      obtain ⟨k', v'⟩ := head
      obtain ⟨hk', ht'⟩ := List.pairwise_cons.mp ht
      -- the two first keys agree: the smaller one is found in only one of the lists otherwise
      have hkey : k = k' := by
        rcases Text.before_or_eq k k' with hlt | heq | hlt
        · have hnone : ((k', v') :: t).lookup k = none := by
            apply lookup_eq_none_of_before
            intro e he
            rcases List.mem_cons.mp he with rfl | he
            · exact hlt
            · exact Text.before_trans hlt (hk' e he)
          have := h k
          rw [hnone] at this
          simp at this
        · exact heq
        · have hnone : ((k, v) :: s).lookup k' = none := by
            apply lookup_eq_none_of_before
            intro e he
            rcases List.mem_cons.mp he with rfl | he
            · exact hlt
            · exact Text.before_trans hlt (hk e he)
          have := h k'
          rw [hnone] at this
          simp at this
      subst hkey
      have hvalue : v = v' := by simpa [List.lookup_cons] using h k
      subst hvalue
      congr 1
      apply ih hs ht'
      intro key
      by_cases heq : key = k
      · subst heq
        rw [lookup_eq_none_of_before hk, lookup_eq_none_of_before hk']
      · simpa [List.lookup_cons, beq_eq_false_iff_ne.mpr heq] using h key

/-- Tables that answer every key alike are equal. -/
theorem ext_get? {s t : Table α} (h : ∀ key, s.get? key = t.get? key) : s = t :=
  Table.ext (entries_eq_of_lookup_eq s.ascending t.ascending h)

end Table
end Placeholders
