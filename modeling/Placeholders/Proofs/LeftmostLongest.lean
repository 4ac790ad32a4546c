import Placeholders.Proofs.RecordedReplacements
import Placeholders.Proofs.SweepParts

/-! What applying a substitution does, told without its sweep. The text is cut at the literals that
are found first, at the longest one where several start at one place, and each of them is replaced.
A text can be cut in this way in one way only, and the search for the literals comes to an end. The
escapes are the case of one literal (`Unescapes`). -/

namespace Placeholders
namespace Substitution

/-- A text cut at literals: each binding with the gap in front of its literal, then the last gap. -/
structure Cut where
  pieces : List (Text × (Text × Text))
  last : Text
  deriving DecidableEq, Repr

namespace Cut

def before (cut : Cut) : Text :=
  (cut.pieces.flatMap fun (gap, binding) => gap ++ binding.1) ++ cut.last

def after (cut : Cut) : Text :=
  (cut.pieces.flatMap fun (gap, binding) => gap ++ binding.2) ++ cut.last

def keep (c : Char) : Cut → Cut
  | ⟨[], last⟩ => ⟨[], c :: last⟩
  | ⟨(gap, binding) :: pieces, last⟩ => ⟨(c :: gap, binding) :: pieces, last⟩

def replace (binding : Text × Text) (cut : Cut) : Cut := ⟨([], binding) :: cut.pieces, cut.last⟩

def ofParts : List Part → Cut
  | [] => ⟨[], []⟩
  | .kept c :: parts => (ofParts parts).keep c
  | .replaced binding :: parts => (ofParts parts).replace binding

theorem before_cons (gap : Text) (binding : Text × Text) (pieces : List (Text × (Text × Text)))
    (last : Text) :
    before ⟨(gap, binding) :: pieces, last⟩ = gap ++ (binding.1 ++ before ⟨pieces, last⟩) := by
  simp [before]

theorem after_ofParts (parts : List Part) : (ofParts parts).after = parts.flatMap Part.after := by
  induction parts with
  | nil => rfl
  | cons part parts ih =>
    rw [List.flatMap_cons, ← ih]
    cases part with
    | replaced binding => simp [ofParts, replace, after, Part.after]
    | kept c =>
      rw [ofParts]
      rcases ofParts parts with ⟨_ | ⟨piece, pieces⟩, last⟩ <;> simp [keep, after, Part.after]

end Cut

variable {bindings : List (Text × Text)}

/-- No literal starts within the gap, not even one that reaches into the rest behind it. -/
def Clear (bindings : List (Text × Text)) (gap rest : Text) : Prop :=
  ∀ i < gap.length, ∀ binding ∈ bindings, ¬ binding.1 <+: (gap ++ rest).drop i

instance (gap rest : Text) : Decidable (Clear bindings gap rest) :=
  inferInstanceAs (Decidable (∀ i < gap.length, ∀ binding ∈ bindings,
    ¬ binding.1 <+: (gap ++ rest).drop i))

/-- The next literal that a search finds: no other starts in the gap before it, and none that
starts where it does is longer. -/
structure Next (bindings : List (Text × Text)) (gap : Text) (binding : Text × Text) (rest : Text) :
    Prop where
  listed : binding ∈ bindings
  clear : Clear bindings gap (binding.1 ++ rest)
  longest : ∀ other ∈ bindings, other.1 <+: binding.1 ++ rest →
    other.1.length ≤ binding.1.length

instance (gap : Text) (binding : Text × Text) (rest : Text) :
    Decidable (Next bindings gap binding rest) :=
  decidable_of_iff (binding ∈ bindings ∧ Clear bindings gap (binding.1 ++ rest) ∧
      ∀ other ∈ bindings, other.1 <+: binding.1 ++ rest → other.1.length ≤ binding.1.length)
    ⟨fun ⟨hm, hc, hl⟩ => ⟨hm, hc, hl⟩, fun h => ⟨h.listed, h.clear, h.longest⟩⟩

/-- A cut of a text at the literals found from left to right, the longest one at each place. -/
structure LeftmostLongest (bindings : List (Text × Text)) (text : Text) (cut : Cut) : Prop where
  covers : cut.before = text
  found : ∀ front gap binding back, cut.pieces = front ++ (gap, binding) :: back →
    Next bindings gap binding (Cut.before ⟨back, cut.last⟩)
  clear : Clear bindings cut.last []

theorem clear_nil (rest : Text) : Clear bindings [] rest := nofun

theorem clear_cons_iff {c : Char} {gap rest : Text} :
    Clear bindings (c :: gap) rest ↔
      (∀ binding ∈ bindings, ¬ binding.1 <+: c :: (gap ++ rest)) ∧ Clear bindings gap rest := by
  constructor
  · intro h
    exact ⟨h 0 (Nat.zero_lt_succ _), fun i hi => h (i + 1) (Nat.succ_lt_succ hi)⟩
  · rintro ⟨hfirst, hgap⟩ i hi
    cases i with
    | zero => exact hfirst
    | succ i => exact hgap i (Nat.lt_of_succ_lt_succ hi)

/-- Where a literal stands it also starts. -/
private theorem not_clear_append {gap rest : Text} {binding : Text × Text} (hm : binding ∈ bindings)
    (hne : binding.1 ≠ []) (more : Text) : ¬ Clear bindings (gap ++ (binding.1 ++ rest)) more := by
  intro h
  have hlt : gap.length < (gap ++ (binding.1 ++ rest)).length := by
    have := List.length_pos_iff.mpr hne
    simp only [List.length_append]
    omega
  refine h gap.length hlt binding hm ?_
  rw [List.append_assoc, List.drop_left, List.append_assoc]
  exact List.prefix_append _ _

namespace Next

/-- What is found next starts no later than what else could be found. -/
private theorem length_le {gap gap' rest rest' : Text} {binding binding' : Text × Text}
    (h : Next bindings gap binding rest) (h' : Next bindings gap' binding' rest')
    (he : gap ++ (binding.1 ++ rest) = gap' ++ (binding'.1 ++ rest')) :
    gap'.length ≤ gap.length := by
  by_contra hlt
  refine h'.clear gap.length (by omega) binding h.listed ?_
  rw [← he, List.drop_left]
  exact List.prefix_append _ _

/-- At most one literal is next. -/
theorem unique (hn : (bindings.map Prod.fst).Nodup) {gap gap' rest rest' : Text}
    {binding binding' : Text × Text} (h : Next bindings gap binding rest)
    (h' : Next bindings gap' binding' rest')
    (he : gap ++ (binding.1 ++ rest) = gap' ++ (binding'.1 ++ rest')) :
    gap = gap' ∧ binding = binding' ∧ rest = rest' := by
  obtain ⟨rfl, hrest⟩ :=
    List.append_inj he (Nat.le_antisymm (length_le h' h he.symm) (length_le h h' he))
  have hle : binding.1.length ≤ binding'.1.length :=
    h'.longest binding h.listed (hrest ▸ List.prefix_append _ _)
  have hge : binding'.1.length ≤ binding.1.length :=
    h.longest binding' h'.listed (hrest ▸ List.prefix_append _ _)
  obtain ⟨hliteral, rfl⟩ := List.append_inj hrest (Nat.le_antisymm hle hge)
  exact ⟨rfl, List.inj_on_of_nodup_map hn h.listed h'.listed hliteral, rfl⟩

end Next

namespace LeftmostLongest

theorem nil_iff {text last : Text} :
    LeftmostLongest bindings text ⟨[], last⟩ ↔ last = text ∧ Clear bindings last [] :=
  ⟨fun h => ⟨h.covers, h.clear⟩, fun ⟨hc, hl⟩ => ⟨hc, by simp, hl⟩⟩

theorem cons_iff {text gap last : Text} {binding : Text × Text}
    {pieces : List (Text × (Text × Text))} :
    LeftmostLongest bindings text ⟨(gap, binding) :: pieces, last⟩ ↔
      gap ++ (binding.1 ++ Cut.before ⟨pieces, last⟩) = text ∧
        Next bindings gap binding (Cut.before ⟨pieces, last⟩) ∧
          LeftmostLongest bindings (Cut.before ⟨pieces, last⟩) ⟨pieces, last⟩ := by
  rw [← Cut.before_cons]
  constructor
  · intro h
    refine ⟨h.covers, h.found [] gap binding pieces rfl, rfl, fun front g b back he => ?_, h.clear⟩
    exact h.found ((gap, binding) :: front) g b back (congrArg ((gap, binding) :: ·) he)
  · rintro ⟨hcovers, hnext, hrest⟩
    refine ⟨hcovers, fun front g b back he => ?_, hrest.clear⟩
    cases front with
    | nil =>
      obtain ⟨hpiece, rfl⟩ := List.cons.inj he
      obtain ⟨rfl, rfl⟩ := Prod.mk.inj hpiece
      exact hnext
    | cons piece front => exact hrest.found front g b back (List.cons.inj he).2

/-- A character at which no literal starts goes into the gap behind it. -/
theorem keep {c : Char} {text : Text} {cut : Cut} (h : LeftmostLongest bindings text cut)
    (hc : ∀ binding ∈ bindings, ¬ binding.1 <+: c :: text) :
    LeftmostLongest bindings (c :: text) (cut.keep c) := by
  obtain ⟨pieces, last⟩ := cut
  cases pieces with
  | nil =>
    obtain ⟨rfl, hclear⟩ := nil_iff.mp h
    exact nil_iff.mpr ⟨rfl, clear_cons_iff.mpr ⟨by simpa using hc, hclear⟩⟩
  | cons piece pieces =>
    obtain ⟨rfl, hnext, hrest⟩ := cons_iff.mp h
    exact cons_iff.mpr
      ⟨rfl, ⟨hnext.listed, clear_cons_iff.mpr ⟨hc, hnext.clear⟩, hnext.longest⟩, hrest⟩

/-- A literal with no longer one at its place is found at once. -/
theorem replace {rest : Text} {binding : Text × Text} {cut : Cut}
    (h : LeftmostLongest bindings rest cut) (hm : binding ∈ bindings)
    (hl : ∀ other ∈ bindings, other.1 <+: binding.1 ++ rest →
      other.1.length ≤ binding.1.length) :
    LeftmostLongest bindings (binding.1 ++ rest) (cut.replace binding) := by
  obtain rfl := h.covers
  exact cons_iff.mpr ⟨rfl, ⟨hm, clear_nil _, hl⟩, h⟩

/-- There is one such cut at most. -/
theorem unique (hn : (bindings.map Prod.fst).Nodup) (hne : ∀ binding ∈ bindings, binding.1 ≠ [])
    {text : Text} {cut other : Cut} (h : LeftmostLongest bindings text cut)
    (ho : LeftmostLongest bindings text other) : cut = other := by
  obtain ⟨pieces, last⟩ := cut
  obtain ⟨others, final⟩ := other
  induction pieces generalizing text others with
  | nil =>
    obtain ⟨rfl, hclear⟩ := nil_iff.mp h
    cases others with
    | nil => rw [(nil_iff.mp ho).1]
    | cons piece others =>
      obtain ⟨rfl, hnext, _⟩ := cons_iff.mp ho
      exact absurd hclear (not_clear_append hnext.listed (hne _ hnext.listed) [])
  | cons piece pieces ih =>
    obtain ⟨rfl, hnext, hrest⟩ := cons_iff.mp h
    cases others with
    | nil =>
      obtain ⟨rfl, hclear⟩ := nil_iff.mp ho
      exact absurd hclear (not_clear_append hnext.listed (hne _ hnext.listed) [])
    | cons other others =>
      obtain ⟨he, hnext', hrest'⟩ := cons_iff.mp ho
      obtain ⟨hgap, hbinding, hbehind⟩ := hnext.unique hn hnext' he.symm
      rw [← hbehind] at hrest'
      obtain ⟨rfl, rfl⟩ := Cut.mk.inj (ih hrest others hrest')
      rw [Prod.ext hgap hbinding]

/-- The parts that a sweep reads are such a cut. -/
theorem ofParts_partsFrom (hne : ∀ binding ∈ bindings, binding.1 ≠ []) (skip : Nat) (text : Text) :
    LeftmostLongest bindings (text.drop skip) (.ofParts (partsFrom bindings skip text)) := by
  induction text generalizing skip with
  | nil => cases skip <;> exact nil_iff.mpr ⟨rfl, clear_nil _⟩
  | cons c text ih =>
    cases skip with
    | succ skip => exact ih skip
    | zero =>
      rw [partsFrom, List.drop_zero]
      cases hl : longestAt bindings (c :: text) with
      | none =>
        refine (ih 0).keep fun binding hm hp => ?_
        exact longestAt_eq_none_iff.mp hl binding hm (applies_iff.mpr ⟨hne binding hm, hp⟩)
      | some best =>
        obtain ⟨hm, happlies⟩ := of_longestAt_eq_some hl
        obtain ⟨hbest, rest, htext⟩ := applies_iff.mp happlies
        -- the sweep goes on behind the literal
        have hbehind : text.drop (best.1.length - 1) = rest := by
          rw [← List.drop_succ_cons (a := c), ← htext,
            Nat.sub_add_cancel (List.length_pos_iff.mpr hbest), List.drop_left]
        have hrest := ih (best.1.length - 1)
        rw [hbehind] at hrest
        rw [← htext] at hl ⊢
        refine hrest.replace hm fun other ho hp => ?_
        exact length_le_of_longestAt hl ho (applies_iff.mpr ⟨hne other ho, hp⟩)

end LeftmostLongest

/-- The search for literals that are not empty goes on behind each of them, so it comes to an
end. -/
theorem wellFounded_next (hne : ∀ binding ∈ bindings, binding.1 ≠ []) :
    WellFounded fun rest text : Text =>
      ∃ gap binding, Next bindings gap binding rest ∧ text = gap ++ (binding.1 ++ rest) := by
  refine Subrelation.wf (fun {rest text} h => ?_) (measure List.length).wf
  obtain ⟨gap, binding, hnext, rfl⟩ := h
  have := List.length_pos_iff.mpr (hne binding hnext.listed)
  show rest.length < (gap ++ (binding.1 ++ rest)).length
  simp only [List.length_append]
  omega

/-- Applying a substitution whose literals are not empty. Of its entries those with a replacement
other than the literal count. The search for the next literal comes to an end; the text is cut at
its leftmost longest literals in exactly one way; and the result has the replacements in their
places, so nothing that was put in is read again. If no entry counts, the text stays as it is. -/
theorem apply_leftmostLongest (s : Substitution)
    (hs : ∀ literal replacement, s.get? literal = some replacement → literal ≠ []) (text : Text) :
    (∀ literal replacement, (literal, replacement) ∈ s.effective ↔
      s.get? literal = some replacement ∧ literal ≠ replacement) ∧
    (WellFounded fun rest text : Text =>
      ∃ gap binding, Next s.effective gap binding rest ∧ text = gap ++ (binding.1 ++ rest)) ∧
    (∃! cut, LeftmostLongest s.effective text cut) ∧
    (∀ cut, LeftmostLongest s.effective text cut → (s.apply text).result = cut.after) ∧
    (s.effective = [] → s.apply text = ⟨text, false⟩) := by
  have hne : ∀ binding ∈ s.effective, binding.1 ≠ [] :=
    fun binding hm => hs binding.1 binding.2 (mem_effective.mp hm).1
  have hcut : LeftmostLongest s.effective text (.ofParts (parts s.effective text)) :=
    .ofParts_partsFrom hne 0 text
  have hunique : ∀ cut, LeftmostLongest s.effective text cut →
      cut = .ofParts (parts s.effective text) :=
    fun cut h => h.unique (nodup_effective s) hne hcut
  refine ⟨fun _ _ => mem_effective, wellFounded_next hne, ⟨_, hcut, hunique⟩, fun cut h => ?_,
    fun h => apply_of_effective_eq_nil h text⟩
  rw [hunique cut h, Cut.after_ofParts, flatMap_after_parts, result_apply]

/-- Literals that begin alike and one that starts within another. The entry for `d` replaces it by
itself, so it does not count. -/
theorem apply_leftmostLongest_overlapping :
    let s : Substitution := Table.ofList [("ab".toList, "b".toList), ("abc".toList, "ab".toList),
      ("bcd".toList, "x".toList), ("d".toList, "d".toList)]
    let text := "xabcdab".toList
    let cut : Cut := ⟨[("x".toList, ("abc".toList, "ab".toList)),
      ("d".toList, ("ab".toList, "b".toList))], []⟩
    (∀ literal replacement, s.get? literal = some replacement → literal ≠ []) ∧
      LeftmostLongest s.effective text cut ∧ (s.apply text).result = "xabdb".toList := by
  intro s text cut
  have hs : ∀ literal replacement, s.get? literal = some replacement → literal ≠ [] := by
    rintro literal replacement h rfl
    exact absurd h (by simp [show s.get? [] = none by decide])
  have hcut : LeftmostLongest s.effective text cut :=
    LeftmostLongest.cons_iff.mpr ⟨rfl, by decide, LeftmostLongest.cons_iff.mpr
      ⟨rfl, by decide, LeftmostLongest.nil_iff.mpr ⟨rfl, by decide⟩⟩⟩
  obtain ⟨_, _, _, hresult, _⟩ := apply_leftmostLongest s hs text
  exact ⟨hs, hcut, hresult cut hcut⟩

/-- The second text is the first with a dollar sign in the place of each escape. -/
def Unescapes (text plain : Text) : Prop :=
  ∃ cut, LeftmostLongest [(Grammar.dollarLiteral, ['$'])] text cut ∧ plain = cut.after

/-- Each text has exactly one text that it unescapes to. -/
theorem unescapes_iff {text plain : Text} : Unescapes text plain ↔ plain = unescape text := by
  have hne : ∀ binding ∈ [(Grammar.dollarLiteral, ['$'])], binding.1 ≠ [] := by decide
  have hn : ([(Grammar.dollarLiteral, ['$'])].map Prod.fst).Nodup := List.nodup_singleton _
  have hcut := LeftmostLongest.ofParts_partsFrom hne 0 text
  have hafter : (Cut.ofParts (partsFrom [(Grammar.dollarLiteral, ['$'])] 0 text)).after =
      unescape text := by
    rw [Cut.after_ofParts, flatMap_after_partsFrom]
    rfl
  constructor
  · rintro ⟨cut, h, rfl⟩
    rw [h.unique hn hne hcut, hafter]
  · rintro rfl
    exact ⟨_, hcut, hafter.symm⟩

end Substitution
end Placeholders
