import TypedConfig.Path

/-!
# Splitting and joining paths

Splitting at the dots is undone by joining with dots, so the pieces of a joined
path are those of its sides. A path is *proper* when none of its pieces is blank,
and *clean* when it is proper or empty: a clean path is read in the same way by
its segments and piece by piece, and joining clean paths appends their segments.
Other paths may have dots at their ends and empty pieces inside, or be blank.
Joining is associative all the same, and one separator stands between any two
paths that are joined; only a path of blanks is lost with its one segment.

Main results:

* `pieces_append_dot` — the pieces of two texts with a dot between them.
* `Clean.steps_eq_segments` — both readings of a clean path agree.
* `join_assoc` — joining is associative.
* `segments_join` — joining paths that are empty or not blank appends their segments.
* `join_assoc_and_appends` — both, and no other paths are joined like that.
-/

namespace TypedConfig.Path

/-! ## Splitting -/

theorem splitChars_ne_nil (cs : List Char) : splitChars cs ≠ [] := by
  cases cs with
  | nil => simp [splitChars]
  | cons c cs =>
    unfold splitChars
    split
    · simp
    · split <;> simp

/-- A character other than a dot belongs to the first piece. -/
theorem splitChars_cons_of_ne {c : Char} (hDot : c ≠ '.') (cs : List Char) :
    ∃ piece rest, splitChars cs = piece :: rest ∧ splitChars (c :: cs) = (c :: piece) :: rest := by
  cases hSplit : splitChars cs with
  | nil => exact absurd hSplit (splitChars_ne_nil cs)
  | cons piece rest =>
    refine ⟨piece, rest, rfl, ?_⟩
    rw [splitChars, if_neg hDot, hSplit]

theorem splitChars_append_dot (a b : List Char) :
    splitChars (a ++ '.' :: b) = splitChars a ++ splitChars b := by
  induction a with
  | nil => simp [splitChars]
  | cons c a ih =>
    by_cases hDot : c = '.'
    · subst hDot
      -- a dot ends the piece before it, whatever follows
      rw [List.cons_append, splitChars, if_pos rfl, splitChars, if_pos rfl, ih, List.cons_append]
    · -- the first piece grows in the same way whether or not the dot and the rest follow
      obtain ⟨piece, rest, hTail, hCons⟩ := splitChars_cons_of_ne hDot a
      obtain ⟨piece', rest', hTail', hCons'⟩ := splitChars_cons_of_ne hDot (a ++ '.' :: b)
      rw [ih, hTail, List.cons_append] at hTail'
      obtain ⟨rfl, rfl⟩ := List.cons.inj hTail'
      rw [List.cons_append, hCons', hCons, List.cons_append]

/-- Nothing is in a piece that was not in the text. -/
theorem mem_of_mem_splitChars {cs piece : List Char} {c : Char}
    (hPiece : piece ∈ splitChars cs) (hChar : c ∈ piece) : c ∈ cs := by
  induction cs generalizing piece with
  | nil =>
    rw [splitChars, List.mem_singleton] at hPiece
    rw [hPiece] at hChar
    cases hChar
  | cons d cs ih =>
    by_cases hDot : d = '.'
    · -- at a dot an empty piece begins
      rw [splitChars, if_pos hDot] at hPiece
      rcases List.mem_cons.mp hPiece with rfl | hPiece
      · cases hChar
      · exact List.mem_cons_of_mem _ (ih hPiece hChar)
    · obtain ⟨first, rest, hTail, hCons⟩ := splitChars_cons_of_ne hDot cs
      rw [hCons] at hPiece
      rcases List.mem_cons.mp hPiece with rfl | hPiece
      · rcases List.mem_cons.mp hChar with rfl | hChar
        · exact List.mem_cons_self ..
        · exact List.mem_cons_of_mem _ (ih (hTail ▸ List.mem_cons_self ..) hChar)
      · exact List.mem_cons_of_mem _ (ih (hTail ▸ List.mem_cons_of_mem _ hPiece) hChar)

theorem pieces_append_dot (a b : String) : pieces (a ++ "." ++ b) = pieces a ++ pieces b := by
  have hChars : (a ++ "." ++ b).toList = a.toList ++ '.' :: b.toList := by
    simp [String.toList_append]
  rw [pieces, hChars, splitChars_append_dot, List.map_append]
  rfl

/-- A path's segments are the steps of a walk that are not empty. -/
theorem segments_eq_filter_steps (path : String) :
    segments path = (steps path).filter (· ≠ "") := by
  rw [segments]
  -- a walk has a single piece, or several of which it drops an empty last one
  unfold steps
  split
  · next piece hPieces =>
    rw [hPieces]
    by_cases hEmpty : piece = ""
    · -- an empty piece is neither a step nor a segment
      simp [hEmpty]
    · simp [hEmpty]
  · split
    · next hLast =>
      obtain ⟨front, hFront⟩ := List.getLast?_eq_some_iff.mp hLast
      rw [hFront]
      simp
    · rfl

/-! ## Proper paths -/

/-- None of the path's pieces is blank. The empty path is not proper: its only
piece is empty. -/
def Proper (path : String) : Prop :=
  ∀ piece ∈ pieces path, Text.isBlank piece = false

instance (path : String) : Decidable (Proper path) :=
  inferInstanceAs (Decidable (∀ piece ∈ pieces path, Text.isBlank piece = false))

theorem Proper.piece_ne_empty {path piece : String} (h : Proper path)
    (hPiece : piece ∈ pieces path) : piece ≠ "" := by
  rintro rfl
  have hBlank := h "" hPiece
  simp [Text.isBlank] at hBlank

theorem Proper.segments_eq_pieces {path : String} (h : Proper path) :
    segments path = pieces path := by
  rw [segments, List.filter_eq_self]
  intro piece hPiece
  exact decide_eq_true (h.piece_ne_empty hPiece)

theorem pieces_ne_nil (path : String) : pieces path ≠ [] := by
  intro h
  exact splitChars_ne_nil path.toList (List.map_eq_nil_iff.mp h)

/-- A walk takes every piece of a proper path: none of them is an empty last one. -/
theorem Proper.steps_eq_pieces {path : String} (h : Proper path) : steps path = pieces path := by
  unfold steps
  split
  · next piece hPieces =>
    have hMem : piece ∈ pieces path := by simp [hPieces]
    rw [if_neg (h.piece_ne_empty hMem), hPieces]
  · split
    · -- the last piece is not empty
      next hLast => exact absurd rfl (h.piece_ne_empty (List.mem_of_getLast? hLast))
    · rfl

/-- A path of blank characters alone has only blank pieces. -/
theorem Proper.isBlank_eq_false {path : String} (h : Proper path) : Text.isBlank path = false := by
  rw [Bool.eq_false_iff]
  intro hBlank
  -- any piece will do, and there always is one
  obtain ⟨piece, rest, hPieces⟩ := List.exists_cons_of_ne_nil (pieces_ne_nil path)
  have hMem : piece ∈ pieces path := by simp [hPieces]
  have hPieceBlank : Text.isBlank piece = true := by
    obtain ⟨chars, hChars, rfl⟩ := List.mem_map.mp hMem
    rw [Text.isBlank, String.toList_ofList, List.all_eq_true]
    -- what stands in a piece stands in the path
    intro c hChar
    exact List.all_eq_true.mp hBlank c (mem_of_mem_splitChars hChars hChar)
  rw [h piece hMem] at hPieceBlank
  cases hPieceBlank

theorem Proper.endsWithDot_eq_false {path : String} (h : Proper path) :
    endsWithDot path = false := by
  rw [Bool.eq_false_iff]
  intro hDot
  obtain ⟨front, hFront⟩ := List.getLast?_eq_some_iff.mp (of_decide_eq_true hDot)
  -- behind the last dot stands an empty piece
  have hPieces : pieces path = (splitChars front).map String.ofList ++ [""] := by
    rw [pieces, hFront, splitChars_append_dot, List.map_append]
    rfl
  exact h.piece_ne_empty (hPieces ▸ List.mem_append_right _ (List.mem_singleton.mpr rfl)) rfl

theorem Proper.startsWithDot_eq_false {path : String} (h : Proper path) :
    startsWithDot path = false := by
  rw [Bool.eq_false_iff]
  intro hDot
  obtain ⟨rest, hRest⟩ := List.head?_eq_some_iff.mp (of_decide_eq_true hDot)
  -- and in front of the first one
  have hPieces : pieces path = "" :: (splitChars rest).map String.ofList := by
    rw [pieces, hRest, splitChars, if_pos rfl]
    rfl
  exact h.piece_ne_empty (hPieces ▸ List.mem_cons_self ..) rfl

/-! ## Clean paths and joining -/

/-- The path is empty or proper, so that it names a place in one way only. -/
def Clean (path : String) : Prop :=
  path = "" ∨ Proper path

theorem Clean.steps_eq_segments {path : String} (h : Clean path) : steps path = segments path := by
  rcases h with rfl | h
  · rfl
  · rw [h.steps_eq_pieces, h.segments_eq_pieces]

theorem isBlank_of_mem_segments {path key : String} (h : Clean path) (hKey : key ∈ segments path) :
    Text.isBlank key = false := by
  rcases h with rfl | h
  · cases hKey
  · rw [h.segments_eq_pieces] at hKey
    exact h key hKey

theorem join_empty_left {path : String} (h : Clean path) : join "" path = path := by
  rcases h with rfl | h
  · rfl
  · have hEmpty : Text.isBlank "" = true := rfl
    simp [join, join?, Option.filter, hEmpty, h.isBlank_eq_false]

theorem join_empty_right {path : String} (h : Clean path) : join path "" = path := by
  rcases h with rfl | h
  · rfl
  · have hEmpty : Text.isBlank "" = true := rfl
    simp [join, join?, Option.filter, hEmpty, h.isBlank_eq_false]

theorem join_of_proper {a b : String} (hLeft : Proper a) (hRight : Proper b) :
    join a b = a ++ "." ++ b := by
  have hJoin : join a b = joinBoth a b := by
    simp [join, join?, Option.filter, hLeft.isBlank_eq_false, hRight.isBlank_eq_false]
  rw [hJoin, joinBoth, hLeft.endsWithDot_eq_false, hRight.startsWithDot_eq_false]
  rfl

theorem Proper.join {a b : String} (hLeft : Proper a) (hRight : Proper b) :
    Proper (Path.join a b) := by
  rw [join_of_proper hLeft hRight]
  intro piece hPiece
  rw [pieces_append_dot] at hPiece
  rcases List.mem_append.mp hPiece with hPiece | hPiece
  · exact hLeft piece hPiece
  · exact hRight piece hPiece

theorem Clean.join {a b : String} (hLeft : Clean a) (hRight : Clean b) :
    Clean (Path.join a b) := by
  -- an empty side leaves the other one as it is
  rcases hLeft with rfl | hLeft
  · rw [join_empty_left hRight]
    exact hRight
  · rcases hRight with rfl | hRight
    · rw [join_empty_right (Or.inr hLeft)]
      exact Or.inr hLeft
    · exact Or.inr (hLeft.join hRight)

/-- A clean path is empty or not blank. -/
theorem Clean.not_blank {path : String} (h : Clean path) :
    path = "" ∨ Text.isBlank path = false :=
  h.imp_right Proper.isBlank_eq_false

/-! ## Joining paths that are not blank -/

theorem join_of_blank {a b : String} (hLeft : Text.isBlank a = true)
    (hRight : Text.isBlank b = true) : join a b = "" := by
  simp [join, join?, Option.filter, hLeft, hRight]

theorem join_of_blank_left {a b : String} (hLeft : Text.isBlank a = true)
    (hRight : Text.isBlank b = false) : join a b = b := by
  simp [join, join?, Option.filter, hLeft, hRight]

theorem join_of_blank_right {a b : String} (hLeft : Text.isBlank a = false)
    (hRight : Text.isBlank b = true) : join a b = a := by
  simp [join, join?, Option.filter, hLeft, hRight]

theorem join_of_not_blank {a b : String} (hLeft : Text.isBlank a = false)
    (hRight : Text.isBlank b = false) : join a b = joinBoth a b := by
  simp [join, join?, Option.filter, hLeft, hRight]

/-- A text with more characters behind it is not blank if it was not blank before. -/
theorem isBlank_append {a b : String} (h : Text.isBlank a = false) :
    Text.isBlank (a ++ b) = false := by
  rw [Text.isBlank, String.toList_append, List.all_append]
  rw [Text.isBlank] at h
  rw [h, Bool.false_and]

theorem ne_empty_of_not_blank {a : String} (h : Text.isBlank a = false) : a ≠ "" := by
  rintro rfl
  cases h

/-- Steps that are not blank are the segments of the path. -/
theorem steps_eq_segments_of_not_blank {path : String}
    (h : ∀ key ∈ steps path, Text.isBlank key = false) : steps path = segments path := by
  rw [segments_eq_filter_steps, eq_comm, List.filter_eq_self]
  exact fun key hKey => decide_eq_true (ne_empty_of_not_blank (h key hKey))

theorem toList_ne_nil {a : String} (h : Text.isBlank a = false) : a.toList ≠ [] := fun hNil =>
  ne_empty_of_not_blank h (String.toList_eq_nil_iff.mp hNil)

/-- A text that is not blank begins alike with more characters behind it. -/
theorem head?_append {a : String} (h : Text.isBlank a = false) (rest : String) :
    (a ++ rest).toList.head? = a.toList.head? := by
  obtain ⟨c, cs, hFirst⟩ := List.exists_cons_of_ne_nil (toList_ne_nil h)
  rw [String.toList_append, hFirst]
  rfl

/-- The first side of a join stays in front. -/
theorem exists_joinBoth_eq_append (a b : String) : ∃ rest, joinBoth a b = a ++ rest := by
  unfold joinBoth
  split
  · exact ⟨_, rfl⟩
  · split
    · exact ⟨_, rfl⟩
    · exact ⟨"." ++ b, String.append_assoc ..⟩

/-- A join that is not blank on its left begins with the left side. -/
theorem exists_join_eq_append {a : String} (b : String) (h : Text.isBlank a = false) :
    ∃ rest, join a b = a ++ rest := by
  cases hRight : Text.isBlank b with
  | true => exact ⟨"", by rw [join_of_blank_right h hRight, String.append_empty]⟩
  | false =>
    rw [join_of_not_blank h hRight]
    exact exists_joinBoth_eq_append a b

theorem isBlank_join {a b : String} (h : Text.isBlank a = false) :
    Text.isBlank (join a b) = false := by
  obtain ⟨rest, hJoin⟩ := exists_join_eq_append b h
  rw [hJoin]
  exact isBlank_append h

/-- The characters without a dot at their end. -/
def chopEnd (cs : List Char) : List Char :=
  if cs.getLast? = some '.' then cs.dropLast else cs

/-- The characters without a dot at their beginning. -/
def chopStart (cs : List Char) : List Char :=
  if cs.head? = some '.' then cs.drop 1 else cs

@[simp] theorem chopEnd_append_dot (cs : List Char) : chopEnd (cs ++ ['.']) = cs := by
  simp [chopEnd]

theorem chopEnd_append_of_ne (cs : List Char) {last : Char} (h : last ≠ '.') :
    chopEnd (cs ++ [last]) = cs ++ [last] := by
  simp [chopEnd, h]

@[simp] theorem chopStart_dot_cons (cs : List Char) : chopStart ('.' :: cs) = cs := by
  simp [chopStart]

theorem chopEnd_append_cons (front : List Char) {cs : List Char} (h : cs ≠ []) :
    chopEnd (front ++ '.' :: cs) = front ++ '.' :: chopEnd cs := by
  -- the last character decides, and it is the last one of the whole
  obtain ⟨init, last, rfl⟩ := List.eq_nil_or_concat cs |>.resolve_left h
  by_cases hDot : last = '.'
  · subst hDot
    have hFront : front ++ '.' :: (init.concat '.') = (front ++ '.' :: init) ++ ['.'] := by simp
    rw [hFront, chopEnd_append_dot, List.concat_eq_append, chopEnd_append_dot]
  · have hFront : front ++ '.' :: (init.concat last) = (front ++ '.' :: init) ++ [last] := by simp
    rw [hFront, chopEnd_append_of_ne _ hDot, List.concat_eq_append, chopEnd_append_of_ne _ hDot]
    simp

theorem chopStart_append {cs : List Char} (h : cs ≠ []) (rest : List Char) :
    chopStart (cs ++ rest) = chopStart cs ++ rest := by
  cases cs with
  | nil => exact absurd rfl h
  | cons c cs => by_cases hDot : c = '.' <;> simp [chopStart, hDot]

/-- Only the single dot is the same dot at both of its ends. -/
theorem chopStart_chopEnd {cs : List Char} (h : cs ≠ ['.']) :
    chopStart (chopEnd cs) = chopEnd (chopStart cs) := by
  cases cs with
  | nil => rfl
  | cons c cs =>
    by_cases hDot : c = '.'
    · subst hDot
      -- behind the dot something is left, so the two dots are not one
      have hRest : cs ≠ [] := fun hNil => h (hNil ▸ rfl)
      have hEnd := chopEnd_append_cons [] hRest
      rw [List.nil_append, List.nil_append] at hEnd
      rw [hEnd, chopStart_dot_cons, chopStart_dot_cons]
    · -- what is left of the text begins with the same character
      have hHead : (chopEnd (c :: cs)).head? = some c := by
        unfold chopEnd
        split
        · next hLast =>
          cases cs with
          | nil => exact absurd (Option.some.inj hLast) hDot
          | cons d cs => rfl
        · rfl
      have hStart : chopStart (c :: cs) = c :: cs := by simp [chopStart, hDot]
      rw [hStart, chopStart, hHead, if_neg (fun hSome => hDot (Option.some.inj hSome))]

/-- Whatever dots the sides bring, one dot stands between them. -/
theorem toList_joinBoth (a b : String) :
    (joinBoth a b).toList = chopEnd a.toList ++ '.' :: chopStart b.toList := by
  unfold joinBoth endsWithDot startsWithDot
  -- each side may bring a dot or none
  by_cases hEnd : a.toList.getLast? = some '.'
  · obtain ⟨front, hFront⟩ := List.getLast?_eq_some_iff.mp hEnd
    by_cases hStart : b.toList.head? = some '.'
    · obtain ⟨rest, hRest⟩ := List.head?_eq_some_iff.mp hStart
      simp [hFront, hRest]
    · simp [hFront, hStart, chopStart]
  · by_cases hStart : b.toList.head? = some '.'
    · obtain ⟨rest, hRest⟩ := List.head?_eq_some_iff.mp hStart
      simp [hEnd, hRest, chopEnd]
    · simp [hEnd, hStart, chopEnd, chopStart]

theorem joinBoth_assoc {a b c : String} (h : b ≠ "") :
    joinBoth (joinBoth a b) c = joinBoth a (joinBoth b c) := by
  have hChars : b.toList ≠ [] := fun hNil => h (String.toList_eq_nil_iff.mp hNil)
  apply String.toList_injective
  rw [toList_joinBoth, toList_joinBoth, toList_joinBoth a (joinBoth b c), toList_joinBoth b c]
  by_cases hDot : b.toList = ['.']
  · -- a dot alone is swallowed from both sides
    rw [hDot]
    have hStart : chopStart ['.'] = [] := chopStart_dot_cons []
    have hEnd : chopEnd ['.'] = [] := chopEnd_append_dot []
    rw [hStart, hEnd, chopEnd_append_dot, List.nil_append, chopStart_dot_cons]
  · -- otherwise its two ends are cut without touching each other
    have hStart : chopStart b.toList ≠ [] := by
      intro hNil
      unfold chopStart at hNil
      split at hNil
      · next hHead =>
        obtain ⟨rest, hRest⟩ := List.head?_eq_some_iff.mp hHead
        rw [hRest] at hNil hDot
        exact hDot (congrArg _ hNil)
      · exact hChars hNil
    have hEnd : chopEnd b.toList ≠ [] := by
      intro hNil
      unfold chopEnd at hNil
      split at hNil
      · next hLast =>
        obtain ⟨front, hFront⟩ := List.getLast?_eq_some_iff.mp hLast
        rw [hFront, List.dropLast_concat] at hNil
        rw [hFront, hNil] at hDot
        exact hDot rfl
      · exact hChars hNil
    rw [chopEnd_append_cons _ hStart, chopStart_append hEnd, chopStart_chopEnd hDot]
    simp

/-- Joining is associative around a path that is not blank. -/
theorem join_assoc_of_not_blank {a b c : String} (h : Text.isBlank b = false) :
    join (join a b) c = join a (join b c) := by
  -- a blank side is dropped whenever it is joined
  cases hLeft : Text.isBlank a with
  | true => rw [join_of_blank_left hLeft h, join_of_blank_left hLeft (isBlank_join h)]
  | false =>
    cases hRight : Text.isBlank c with
    | true => rw [join_of_blank_right (isBlank_join hLeft) hRight, join_of_blank_right h hRight]
    | false =>
      rw [join_of_not_blank (isBlank_join hLeft) hRight, join_of_not_blank hLeft h,
        join_of_not_blank hLeft (isBlank_join h), join_of_not_blank h hRight,
        joinBoth_assoc (ne_empty_of_not_blank h)]

/-- What follows a path that is not blank stays where it is when something is joined in
front. -/
theorem join_append {a b : String} (h : Text.isBlank b = false) (rest : String) :
    join a (b ++ rest) = join a b ++ rest := by
  cases hLeft : Text.isBlank a with
  | true => rw [join_of_blank_left hLeft h, join_of_blank_left hLeft (isBlank_append h)]
  | false =>
    have hChars : b.toList ≠ [] := fun hNil =>
      ne_empty_of_not_blank h (String.toList_eq_nil_iff.mp hNil)
    rw [join_of_not_blank hLeft h, join_of_not_blank hLeft (isBlank_append h)]
    apply String.toList_injective
    rw [toList_joinBoth, String.toList_append, String.toList_append, toList_joinBoth,
      chopStart_append hChars, List.append_assoc, List.cons_append]

theorem segments_append_dot (a b : String) :
    segments (a ++ "." ++ b) = segments a ++ segments b := by
  rw [segments, pieces_append_dot, List.filter_append]
  rfl

theorem segments_chopEnd (a : String) :
    segments (String.ofList (chopEnd a.toList)) = segments a := by
  by_cases hEnd : a.toList.getLast? = some '.'
  · -- what is cut off is a dot with nothing behind it
    obtain ⟨front, hFront⟩ := List.getLast?_eq_some_iff.mp hEnd
    have hSplit : a = String.ofList front ++ "." ++ "" := by
      apply String.toList_injective
      rw [hFront]
      simp
    rw [hFront, chopEnd_append_dot]
    calc segments (String.ofList front)
        = segments (String.ofList front) ++ segments "" := (List.append_nil _).symm
      _ = segments (String.ofList front ++ "." ++ "") := (segments_append_dot ..).symm
      _ = segments a := by rw [← hSplit]
  · rw [chopEnd, if_neg hEnd, String.ofList_toList]

theorem segments_chopStart (b : String) :
    segments (String.ofList (chopStart b.toList)) = segments b := by
  by_cases hStart : b.toList.head? = some '.'
  · -- or with nothing in front of it
    obtain ⟨rest, hRest⟩ := List.head?_eq_some_iff.mp hStart
    have hSplit : b = "" ++ "." ++ String.ofList rest := by
      apply String.toList_injective
      rw [hRest]
      simp
    rw [hRest, chopStart_dot_cons]
    calc segments (String.ofList rest)
        = segments "" ++ segments (String.ofList rest) := rfl
      _ = segments ("" ++ "." ++ String.ofList rest) := (segments_append_dot ..).symm
      _ = segments b := by rw [← hSplit]
  · rw [chopStart, if_neg hStart, String.ofList_toList]

/-- Joining paths that are not blank appends their segments. -/
theorem segments_join_of_not_blank {a b : String} (hLeft : Text.isBlank a = false)
    (hRight : Text.isBlank b = false) : segments (join a b) = segments a ++ segments b := by
  have hJoin : join a b =
      String.ofList (chopEnd a.toList) ++ "." ++ String.ofList (chopStart b.toList) := by
    apply String.toList_injective
    rw [join_of_not_blank hLeft hRight, toList_joinBoth]
    simp
  rw [hJoin, segments_append_dot, segments_chopEnd, segments_chopStart]

/-! ## Joining any paths -/

theorem join_empty_of_not_blank {a : String} (h : a = "" ∨ Text.isBlank a = false) :
    join a "" = a := by
  rcases h with rfl | h
  · rfl
  · exact join_of_blank_right h rfl

/-- A blank path leaves nothing behind between two others. -/
theorem join_assoc_of_blank {b : String} (h : Text.isBlank b = true) (a c : String) :
    join (join a b) c = join a (join b c) := by
  -- two blank paths join to the empty one
  have hEmpty : Text.isBlank "" = true := rfl
  cases hLeft : Text.isBlank a with
  | true =>
    rw [join_of_blank hLeft h]
    cases hRight : Text.isBlank c with
    | true => rw [join_of_blank hEmpty hRight, join_of_blank h hRight, join_of_blank hLeft hEmpty]
    | false =>
      rw [join_of_blank_left hEmpty hRight, join_of_blank_left h hRight,
        join_of_blank_left hLeft hRight]
  | false =>
    rw [join_of_blank_right hLeft h]
    cases hRight : Text.isBlank c with
    | true =>
      rw [join_of_blank_right hLeft hRight, join_of_blank h hRight,
        join_of_blank_right hLeft hEmpty]
    | false => rw [join_of_blank_left h hRight]

/-- Joining is associative. -/
theorem join_assoc (a b c : String) : join (join a b) c = join a (join b c) := by
  cases hMiddle : Text.isBlank b with
  | true => exact join_assoc_of_blank hMiddle a c
  | false => exact join_assoc_of_not_blank hMiddle

/-- Joining paths that are empty or not blank appends their segments. -/
theorem segments_join {a b : String} (hLeft : a = "" ∨ Text.isBlank a = false)
    (hRight : b = "" ∨ Text.isBlank b = false) :
    segments (join a b) = segments a ++ segments b := by
  -- an empty side has no segments to add
  rcases hRight with rfl | hRight
  · rw [join_empty_of_not_blank hLeft]
    exact (List.append_nil _).symm
  · rcases hLeft with rfl | hLeft
    · rw [join_of_blank_left rfl hRight]
      rfl
    · exact segments_join_of_not_blank hLeft hRight

theorem splitChars_of_not_mem {cs : List Char} (h : '.' ∉ cs) : splitChars cs = [cs] := by
  induction cs with
  | nil => rfl
  | cons c cs ih =>
    rw [List.mem_cons, not_or] at h
    rw [splitChars, if_neg (Ne.symm h.1), ih h.2]

/-- A path without a dot is its only segment, unless it is empty. -/
theorem segments_of_not_mem {a : String} (hDot : '.' ∉ a.toList) (hEmpty : a ≠ "") :
    segments a = [a] := by
  rw [segments, pieces, splitChars_of_not_mem hDot, List.map_singleton, String.ofList_toList]
  exact List.filter_cons_of_pos (decide_eq_true hEmpty)

/-- A blank path is its only segment, unless it is empty. -/
theorem segments_of_blank {a : String} (h : Text.isBlank a = true) (hEmpty : a ≠ "") :
    segments a = [a] := by
  have hDot : '.' ∉ a.toList := by
    intro hMem
    have hBlank : Text.isBlankChar '.' = true := List.all_eq_true.mp h '.' hMem
    exact absurd hBlank (by decide)
  exact segments_of_not_mem hDot hEmpty

/-- A blank path in front is dropped, and its segment with it. -/
theorem segments_join_ne_left {a : String} (h : Text.isBlank a = true) (hEmpty : a ≠ "")
    (b : String) : segments (join a b) ≠ segments a ++ segments b := by
  -- a blank path that is not empty is a segment
  rw [segments_of_blank h hEmpty]
  cases hRight : Text.isBlank b with
  | true =>
    rw [join_of_blank h hRight]
    exact (List.cons_ne_nil a _).symm
  | false =>
    rw [join_of_blank_left h hRight]
    exact (List.cons_ne_self a _).symm

/-- So is one behind. -/
theorem segments_join_ne_right {b : String} (h : Text.isBlank b = true) (hEmpty : b ≠ "")
    (a : String) : segments (join a b) ≠ segments a ++ segments b := by
  rw [segments_of_blank h hEmpty]
  cases hLeft : Text.isBlank a with
  | true =>
    rw [join_of_blank hLeft h]
    exact (List.append_ne_nil_of_right_ne_nil _ (List.cons_ne_nil b [])).symm
  | false =>
    rw [join_of_blank_right hLeft h]
    exact fun hSame => List.cons_ne_nil b [] (List.self_eq_append_right.mp hSame)

/-- **Joining is associative and joins the segments.** It does not matter in which order
three paths are joined. The segments of a join are those of its two sides, one after the
other, exactly when each side is empty or not blank. -/
theorem join_assoc_and_appends :
    (∀ a b c : String, join (join a b) c = join a (join b c)) ∧
      ∀ a b : String, segments (join a b) = segments a ++ segments b ↔
        (a = "" ∨ Text.isBlank a = false) ∧ (b = "" ∨ Text.isBlank b = false) := by
  refine ⟨join_assoc, fun a b => ⟨fun hAppends => ?_, fun h => segments_join h.1 h.2⟩⟩
  -- a side that is blank without being empty would lose its segment
  constructor
  · cases hLeft : Text.isBlank a with
    | true => exact .inl (Decidable.not_not.mp fun h => segments_join_ne_left hLeft h b hAppends)
    | false => exact .inr rfl
  · cases hRight : Text.isBlank b with
    | true => exact .inl (Decidable.not_not.mp fun h => segments_join_ne_right hRight h a hAppends)
    | false => exact .inr rfl

end TypedConfig.Path
