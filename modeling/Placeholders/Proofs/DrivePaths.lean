import Mathlib.Data.List.TakeWhile
import Placeholders.PathStyle
import Placeholders.Proofs.LeftmostSpans

/-! What the drive-letter style rewrites. A drive path is a letter and a colon, then segments, each
behind one backslash and as long as it can be, as many as there are, then one more backslash if it
is there. A search finds the drive paths of a text from left to right, so a letter within one of
them starts no other; the backslashes within them become slashes and nothing else is changed. -/

namespace Placeholders

/-- For each character of the text whether it belongs to a span. -/
def Spans.inside (spans : Spans) : List Bool :=
  (spans.pieces.flatMap fun (gap, span) =>
    List.replicate gap.length false ++ List.replicate span.length true) ++
      List.replicate spans.last.length false

theorem Spans.inside_cons (gap span : Text) (pieces : List (Text × Text)) (last : Text) :
    inside ⟨(gap, span) :: pieces, last⟩ = List.replicate gap.length false ++
      (List.replicate span.length true ++ inside ⟨pieces, last⟩) := by
  simp [inside]

theorem Spans.length_inside (spans : Spans) : spans.inside.length = spans.text.length := by
  obtain ⟨pieces, last⟩ := spans
  induction pieces with
  | nil => simp [inside]
  | cons piece pieces ih =>
    rw [inside_cons, text_cons]
    simp [ih]

namespace PathStyle
variable {text rest : Text}

def SegmentEnds (text : Text) : Prop := ∀ c ∈ text.head?, isSegmentChar c = false

theorem segmentEnds_nil : SegmentEnds [] := nofun

theorem segmentEnds_cons {c : Char} (h : isSegmentChar c = false) (text : Text) :
    SegmentEnds (c :: text) := by
  intro d hd
  obtain rfl := Option.some.inj hd
  exact h

/-- What of a drive path stands behind its colon, with the rest of the text behind it. -/
inductive Tail : Text → Text → Prop
  /-- A segment, to its end. -/
  | segment {segment more rest : Text} : segment ≠ [] → (∀ c ∈ segment, isSegmentChar c = true) →
      SegmentEnds (more ++ rest) → Tail more rest → Tail ('\\' :: (segment ++ more)) rest
  /-- One more backslash, behind which there is no segment. -/
  | backslash {rest : Text} : SegmentEnds rest → Tail ['\\'] rest
  | nothing {rest : Text} : rest.head? ≠ some '\\' → Tail [] rest

theorem segmentEnds_dropWhile (text : Text) : SegmentEnds (text.dropWhile isSegmentChar) := by
  intro c hc
  have := List.head?_dropWhile_not isSegmentChar text
  rw [Option.mem_def.mp hc] at this
  simpa using this

/-- A segment is told by where it begins. -/
private theorem takeWhile_segment {segment more : Text}
    (hs : ∀ c ∈ segment, isSegmentChar c = true) (he : SegmentEnds more) :
    (segment ++ more).takeWhile isSegmentChar = segment := by
  rw [List.takeWhile_append_of_pos hs]
  cases more with
  | nil => simp
  | cons c more => rw [List.takeWhile_cons_of_neg (by simp [he c rfl]), List.append_nil]

/-- Characters of segments at the front are not the end of a segment. -/
private theorem not_segmentEnds_append {segment more : Text} (hne : segment ≠ [])
    (hs : ∀ c ∈ segment, isSegmentChar c = true) : ¬ SegmentEnds (segment ++ more) := by
  intro he
  obtain ⟨c, segment, rfl⟩ := List.exists_cons_of_ne_nil hne
  have hc := he c rfl
  rw [hs c List.mem_cons_self] at hc
  cases hc

namespace Tail

theorem exists_of_text (text : Text) : ∃ tail rest, tail ++ rest = text ∧ Tail tail rest := by
  induction hn : text.length using Nat.strongRecOn generalizing text with
  | _ n ih =>
    cases text with
    | nil => exact ⟨[], [], rfl, .nothing (by simp)⟩
    | cons c text =>
      by_cases hc : c = '\\'
      · subst hc
        have hsplit := List.takeWhile_append_dropWhile (p := isSegmentChar) (l := text)
        by_cases hnil : text.takeWhile isSegmentChar = []
        · rw [hnil, List.nil_append] at hsplit
          exact ⟨['\\'], text, rfl, .backslash (hsplit ▸ segmentEnds_dropWhile text)⟩
        · have hpositive := List.length_pos_iff.mpr hnil
          have hlength := congrArg List.length hsplit
          rw [List.length_append] at hlength
          rw [List.length_cons] at hn
          obtain ⟨more, rest, hbehind, hmore⟩ := ih _ (by omega) (text.dropWhile isSegmentChar) rfl
          refine ⟨'\\' :: (text.takeWhile isSegmentChar ++ more), rest, ?_, ?_⟩
          · rw [List.cons_append, List.append_assoc, hbehind, hsplit]
          · refine .segment hnil (fun d hd => List.mem_takeWhile_imp hd) ?_ hmore
            rw [hbehind]
            exact segmentEnds_dropWhile text
      · exact ⟨[], c :: text, rfl, .nothing (by simpa using hc)⟩

/-- The tail of a drive path is told by the text. -/
theorem unique {tail other behind : Text} (h : Tail tail rest) (ho : Tail other behind)
    (he : tail ++ rest = other ++ behind) : tail = other := by
  induction h generalizing other with
  | @segment segment more rest hne hs hends _ ih =>
    cases ho with
    | @segment segment' more' _ hne' hs' hends' ho =>
      simp only [List.cons_append, List.append_assoc, List.cons.injEq, true_and] at he
      have hsegment : segment = segment' := by
        rw [← takeWhile_segment hs hends, he, takeWhile_segment hs' hends']
      subst hsegment
      rw [ih ho (List.append_cancel_left he)]
    | backslash hends' =>
      simp only [List.cons_append, List.nil_append, List.append_assoc, List.cons.injEq,
        true_and] at he
      exact absurd (he ▸ hends') (not_segmentEnds_append hne hs)
    | nothing hno =>
      rw [List.nil_append] at he
      exact absurd (by rw [← he]; rfl) hno
  | @backslash rest hends =>
    cases ho with
    | @segment segment' more' _ hne' hs' _ _ =>
      simp only [List.cons_append, List.nil_append, List.append_assoc, List.cons.injEq,
        true_and] at he
      exact absurd (he ▸ hends) (not_segmentEnds_append hne' hs')
    | backslash _ => rfl
    | nothing hno =>
      rw [List.nil_append] at he
      exact absurd (by rw [← he]; rfl) hno
  | nothing hno =>
    cases ho with
    | segment _ _ _ _ =>
      rw [List.nil_append] at he
      exact absurd (by rw [he]; rfl) hno
    | backslash _ =>
      rw [List.nil_append] at he
      exact absurd (by rw [he]; rfl) hno
    | nothing _ => rfl

end Tail

def drivePath : Pattern where
  Starts text := ∃ letter rest, text = letter :: ':' :: rest ∧ isDriveLetter letter = true
  Reads span rest := ∃ letter tail, span = letter :: ':' :: tail ∧ isDriveLetter letter = true ∧
    Tail tail rest
  starts_iff := by
    intro text
    constructor
    · rintro ⟨letter, behind, rfl, hletter⟩
      obtain ⟨tail, rest, rfl, htail⟩ := Tail.exists_of_text behind
      exact ⟨letter :: ':' :: tail, rest, rfl, letter, tail, rfl, hletter, htail⟩
    · rintro ⟨_, rest, rfl, letter, tail, rfl, hletter, _⟩
      exact ⟨letter, tail ++ rest, rfl, hletter⟩
  ne_nil := by
    rintro _ rest ⟨letter, tail, rfl, _⟩
    exact List.cons_ne_nil _ _
  eq_of_append_eq := by
    rintro _ rest _ behind ⟨letter, tail, rfl, _, htail⟩ ⟨other, tail', rfl, _, htail'⟩ he
    simp only [List.cons_append, List.cons.injEq, true_and] at he
    rw [he.1, htail.unique htail' he.2]

def slash (c : Char) (inside : Bool) : Char := if inside && c == '\\' then '/' else c

theorem zipWith_slash_outside (text : Text) :
    List.zipWith slash text (List.replicate text.length false) = text := by
  induction text with
  | nil => rfl
  | cons c text ih => simp [List.replicate_succ, slash, ih]

theorem zipWith_slash_segment {segment : Text} (h : ∀ c ∈ segment, isSegmentChar c = true) :
    List.zipWith slash segment (List.replicate segment.length true) = segment := by
  induction segment with
  | nil => rfl
  | cons c segment ih =>
    obtain ⟨hc, hrest⟩ := List.forall_mem_cons.mp h
    have hslash : c ≠ '\\' := by
      rintro rfl
      exact absurd hc (by decide)
    simp [List.replicate_succ, slash, ih hrest, hslash]

/-- Where a place takes the next character as one outside of drive paths, it does so from there. -/
theorem slashesFrom_eq_slashes {place : Place}
    (h : ∀ c rest, text = c :: rest → place.step c rest = Place.outside.step c rest) :
    slashesFrom place text = slashes text := by
  cases text with
  | nil => cases place <;> rfl
  | cons c rest => rw [slashes, slashesFrom, slashesFrom, h c rest rfl]

private theorem slashesFrom_segment {segment : Text}
    (hs : ∀ c ∈ segment, isSegmentChar c = true) (rest : Text) :
    slashesFrom .segment (segment ++ rest) = segment ++ slashesFrom .segment rest := by
  induction segment with
  | nil => rfl
  | cons c segment ih =>
    obtain ⟨hc, hrest⟩ := List.forall_mem_cons.mp hs
    simp [slashesFrom, Place.step, hc, ih hrest]

/-- Behind the colon and behind a segment a backslash is a separator. -/
private theorem slashesFrom_backslash {place : Place} (h : place = .root ∨ place = .segment)
    (text : Text) : slashesFrom place ('\\' :: text) = '/' :: slashesFrom .separator text := by
  rcases h with rfl | rfl
  · rfl
  · rfl

/-- Behind the colon, or behind a segment that has ended, the tail of the drive path is rewritten;
what comes behind it is read as text outside. -/
theorem slashesFrom_tail {tail : Text} (h : Tail tail rest) {place : Place}
    (hp : place = .root ∨ place = .segment ∧ SegmentEnds (tail ++ rest)) :
    slashesFrom place (tail ++ rest) =
      List.zipWith slash tail (List.replicate tail.length true) ++ slashes rest := by
  induction h generalizing place with
  | @segment segment more rest hne hs hends _ ih =>
    obtain ⟨c, segment, rfl⟩ := List.exists_cons_of_ne_nil hne
    obtain ⟨hc, hrest⟩ := List.forall_mem_cons.mp hs
    have hfirst (text : Text) :
        slashesFrom .separator (c :: text) = c :: slashesFrom .segment text := by
      simp [slashesFrom, Place.step, hc]
    have hmore := ih (.inr ⟨rfl, hends⟩)
    calc slashesFrom place ('\\' :: ((c :: segment) ++ more) ++ rest)
      _ = '/' :: slashesFrom .separator (c :: (segment ++ (more ++ rest))) := by
        rw [List.cons_append, slashesFrom_backslash (hp.imp_right And.left), List.append_assoc,
          List.cons_append]
      _ = '/' :: ((c :: segment) ++
            (List.zipWith slash more (List.replicate more.length true) ++ slashes rest)) := by
        rw [hfirst, slashesFrom_segment hrest, hmore, List.cons_append]
      _ = List.zipWith slash ('\\' :: ((c :: segment) ++ more))
            (List.replicate ('\\' :: ((c :: segment) ++ more)).length true) ++ slashes rest := by
        rw [List.length_cons, List.length_append, List.replicate_succ,
          ← List.replicate_append_replicate, List.zipWith_cons_cons,
          List.zipWith_append (by simp), zipWith_slash_segment hs]
        simp [slash]
  | @backslash rest hends =>
    rw [List.cons_append, List.nil_append, slashesFrom_backslash (hp.imp_right And.left),
      slashesFrom_eq_slashes]
    · rfl
    · rintro c rest rfl
      simp [Place.step, hends c rfl]
  | @nothing rest hno =>
    rw [List.nil_append]
    refine slashesFrom_eq_slashes ?_
    rintro c rest rfl
    have hc : c ≠ '\\' := by simpa using hno
    rcases hp with rfl | ⟨rfl, hends⟩
    · simp [Place.step, hc]
    · have hsegment : isSegmentChar c = false := hends c rfl
      simp [Place.step, hc, hsegment]

/-- Text in which no drive path begins stays. -/
theorem slashes_gap {gap : Text} (h : drivePath.Silent gap rest) :
    slashes (gap ++ rest) = gap ++ slashes rest := by
  induction gap with
  | nil => rfl
  | cons c gap ih =>
    obtain ⟨hfirst, hgap⟩ := Pattern.silent_cons_iff.mp h
    have hstart : Place.start c (gap ++ rest) = .outside := by
      rw [Place.start, if_neg]
      rintro hletter
      obtain ⟨hc, hcolon⟩ := Bool.and_eq_true_iff.mp hletter
      obtain ⟨behind, hbehind⟩ := List.head?_eq_some_iff.mp (beq_iff_eq.mp hcolon)
      exact hfirst ⟨c, behind, by rw [hbehind], hc⟩
    calc slashes (c :: gap ++ rest)
      _ = c :: slashesFrom (Place.start c (gap ++ rest)) (gap ++ rest) := rfl
      _ = c :: (gap ++ slashes rest) := by rw [hstart, ← ih hgap, slashes]

theorem slashes_of_silent (h : drivePath.Silent text []) : slashes text = text := by
  simpa [slashes, slashesFrom] using slashes_gap h

/-- A drive path with what it becomes. -/
theorem slashes_drivePath {span : Text} (h : drivePath.Reads span rest) :
    slashes (span ++ rest) =
      List.zipWith slash span (List.replicate span.length true) ++ slashes rest := by
  obtain ⟨letter, tail, rfl, hletter, htail⟩ := h
  have hc : letter ≠ '\\' := by
    rintro rfl
    exact absurd hletter (by decide)
  calc slashes (letter :: ':' :: tail ++ rest)
    _ = letter :: ':' :: slashesFrom .root (tail ++ rest) := by
      simp [slashes, slashesFrom, Place.step, Place.start, hletter]
    _ = letter :: ':' ::
          (List.zipWith slash tail (List.replicate tail.length true) ++ slashes rest) := by
      rw [slashesFrom_tail htail (.inl rfl)]
    _ = _ := by simp [List.replicate_succ, slash, hc]

/-- The whole text, with its drive paths. -/
private theorem slashes_eq_zipWith {spans : Spans} (h : drivePath.Finds text spans) :
    slashes text = List.zipWith slash text spans.inside := by
  induction h with
  | @done last hsilent =>
    rw [slashes_of_silent hsilent, Spans.inside]
    simp [zipWith_slash_outside]
  | @next gap span rest pieces last hsilent hreads _ ih =>
    rw [slashes_gap hsilent, slashes_drivePath hreads, ih, Spans.inside_cons,
      List.zipWith_append (by simp), List.zipWith_append (by simp), zipWith_slash_outside]

/-- Where a character within marked text is a backslash, and only there, it changes. -/
private theorem zipWith_slash_changes {marks : List Bool} (h : marks.length = text.length) (i : ℕ) :
    ((List.zipWith slash text marks)[i]? ≠ text[i]? ↔
        text[i]? = some '\\' ∧ marks[i]? = some true) ∧
      ((List.zipWith slash text marks)[i]? ≠ text[i]? →
        (List.zipWith slash text marks)[i]? = some '/') := by
  rw [List.getElem?_zipWith]
  by_cases hi : i < text.length
  · have hm : i < marks.length := h ▸ hi
    rw [List.getElem?_eq_getElem hi, List.getElem?_eq_getElem hm]
    cases hmark : marks[i] with
    | false => simp [slash]
    | true =>
      by_cases hc : text[i] = '\\'
      · simp [slash, hc]
      · simp [slash, hc]
  · rw [List.getElem?_eq_none (by omega), List.getElem?_eq_none (by omega)]
    simp

private theorem slashes_of_not_infix
    (h : ∀ letter, isDriveLetter letter = true → ¬ [letter, ':'] <:+: text) :
    slashes text = text := by
  refine slashes_of_silent ?_
  rintro i - ⟨letter, rest, hdrop, hletter⟩
  rw [List.append_nil] at hdrop
  refine h letter hletter ⟨text.take i, rest, ?_⟩
  rw [List.append_assoc, List.cons_append, List.cons_append, List.nil_append, ← hdrop,
    List.take_append_drop]

/-- In the drive-letter style the backslashes within the drive paths of a text become slashes, and
there is no other change; the slash style keeps every text. What is absent or empty is empty. -/
theorem normalize_drivePaths (text : Text) :
    (∃ spans : Spans, (∀ others, drivePath.Finds text others ↔ others = spans) ∧
      spans.text = text ∧
      (normalize .windows (some text)).length = text.length ∧
      ∀ i : ℕ, ((normalize .windows (some text))[i]? ≠ text[i]? ↔
          text[i]? = some '\\' ∧ spans.inside[i]? = some true) ∧
        ((normalize .windows (some text))[i]? ≠ text[i]? →
          (normalize .windows (some text))[i]? = some '/')) ∧
    ((∀ letter, isDriveLetter letter = true → ¬ [letter, ':'] <:+: text) →
      normalize .windows (some text) = text) ∧
    normalize .posix (some text) = text ∧
    ∀ style, normalize style none = [] ∧ normalize style (some []) = [] := by
  refine ⟨?_, slashes_of_not_infix, rfl, fun style => by cases style <;> exact ⟨rfl, rfl⟩⟩
  obtain ⟨spans, hspans, hunique⟩ := drivePath.existsUnique_finds text
  have hlength : spans.inside.length = text.length := by
    rw [spans.length_inside, hspans.text_eq]
  refine ⟨spans, fun others => ⟨hunique others, ?_⟩, hspans.text_eq, length_slashesFrom _ _, ?_⟩
  · rintro rfl
    exact hspans
  · intro i
    rw [normalize, Option.getD_some, slashes_eq_zipWith hspans]
    exact zipWith_slash_changes hlength i

/-- An option that holds no drive path stays; in another one there are two, and the second ends with
a backslash of its own. -/
theorem normalize_drivePaths_options :
    let option := "-DFOO=\\x".toList
    let paths := "-Ic:\\a;d:\\b\\".toList
    let spans : Spans := ⟨[("-I".toList, "c:\\a".toList), (";".toList, "d:\\b\\".toList)], []⟩
    ((∀ letter, isDriveLetter letter = true → ¬ [letter, ':'] <:+: option) ∧
      normalize .windows (some option) = option) ∧
    drivePath.Finds paths spans ∧
      (∀ i : ℕ, (normalize .windows (some paths))[i]? ≠ paths[i]? ↔
        paths[i]? = some '\\' ∧ spans.inside[i]? = some true) ∧
      normalize .windows (some paths) = "-Ic:/a;d:/b/".toList := by
  intro option paths spans
  have hno : ∀ letter, isDriveLetter letter = true → ¬ [letter, ':'] <:+: option := by
    intro letter _ hin
    have hcolon : ':' ∈ option := hin.subset (by simp)
    revert hcolon
    decide
  have hoption : drivePath.Silent "-I".toList "c:\\a;d:\\b\\".toList := by
    rintro i hi ⟨letter, rest, hdrop, _⟩
    match i with
    | 0 => cases hdrop
    | 1 => cases hdrop
  have hsemicolon : drivePath.Silent ";".toList "d:\\b\\".toList := by
    rintro i hi ⟨letter, rest, hdrop, _⟩
    match i with
    | 0 => cases hdrop
  have hfirst : drivePath.Reads "c:\\a".toList ";d:\\b\\".toList :=
    ⟨'c', "\\a".toList, rfl, by decide,
      @Tail.segment ['a'] [] _ (by decide) (List.forall_mem_singleton.mpr (by decide))
        (segmentEnds_cons (by decide) _) (.nothing (by decide))⟩
  have hsecond : drivePath.Reads "d:\\b\\".toList [] :=
    ⟨'d', "\\b\\".toList, rfl, by decide,
      @Tail.segment ['b'] ['\\'] _ (by decide) (List.forall_mem_singleton.mpr (by decide))
        (segmentEnds_cons (by decide) _) (.backslash segmentEnds_nil)⟩
  have hfinds : drivePath.Finds paths spans :=
    .next hoption hfirst (.next hsemicolon hsecond (.done (Pattern.silent_nil _)))
  obtain ⟨found, hfound, _, _, hchanged⟩ := (normalize_drivePaths paths).1
  obtain rfl := (hfound spans).mp hfinds
  exact ⟨⟨hno, (normalize_drivePaths option).2.1 hno⟩, hfinds, fun i => (hchanged i).1, by decide⟩

-- A doubled backslash ends the drive path behind the first of the two.
example : normalize .windows (some "x:\\a\\\\b c:d:\\".toList) =
    "x:/a/\\b c:d:/".toList := by
  decide

end PathStyle
end Placeholders
