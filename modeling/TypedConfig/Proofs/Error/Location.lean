import Mathlib.Data.List.Basic
import Mathlib.Data.List.TakeWhile
import TypedConfig.Proofs.Error.Annotation
import TypedConfig.Proofs.Text.Quoted

/-!
# Locations are unambiguous

The error of a value inside lists and maps collects the indices and the keys on the way
to it. Keys may be any texts, also ones that look like an index, like a quoted key or like
several segments; the path nevertheless tells the way.

To see it, put the dot that a bare key is joined with in front of the key, also where the
path begins with it: then a path is the plain concatenation of its marks, `opened_trail`.
An index in brackets and a quoted key are words of prefix codes. A bare key is free of
dots and brackets and ends where the next mark begins. So the first mark of a path can be
read off, `mark_append_inj`, and with it all of them.

Main results:

* `Error.path?_along` — the path of an error that had none is the trail of the places it
  was passed through.
* `Error.path?_along_eq_iff` — two such errors have the same path only if they were passed
  through the same places.
-/

namespace TypedConfig

/-- A place directly inside a list or a map. -/
inductive Place where
  /-- An item of a list. -/
  | item (index : Nat)
  /-- An entry of a map. -/
  | entry (key : String)
deriving DecidableEq

namespace Place

/-- The segment that stands for a place in paths. -/
def segment : Place → String
  | item index => Error.indexSegment index
  | entry key => Error.keySegment key

/-- The error of the value at a place, as its list or its map passes it on. -/
def annotate : Place → Error → Error
  | item index, e => e.withinIndex index
  | entry key, e => e.withinKey key

theorem annotate_eq (place : Place) (e : Error) : place.annotate e = e.within place.segment := by
  cases place <;> rfl

/-- The places as a path, outermost first. -/
def trail (places : List Place) : String :=
  places.foldr (fun place path => Error.attach place.segment path) ""

end Place

/-- The error passed on through places, outermost first: the innermost annotates it first. -/
def Error.along (e : Error) (places : List Place) : Error :=
  places.foldr Place.annotate e

namespace Place

/-! ## Joining with a dot -/

/-- A path that a dot can join to an outer one. -/
structure Inner (path : String) : Prop where
  visible : Text.isBlank path = false
  starts : Path.startsWithDot path = false

/-- A path that a dot can join on both sides. -/
structure Framed (path : String) : Prop extends Inner path where
  ends : Path.endsWithDot path = false

theorem Inner.append {path : String} (h : Inner path) (rest : String) : Inner (path ++ rest) := by
  refine ⟨Path.isBlank_append h.visible, ?_⟩
  rw [Path.startsWithDot, Path.head?_append h.visible]
  exact h.starts

theorem Inner.attach {segment : String} (h : Inner segment) (path : String) :
    Inner (Error.attach segment path) := by
  obtain ⟨rest, hAttach⟩ := Error.exists_attach_eq_append path h.visible
  rw [hAttach]
  exact h.append rest

/-- A path with the dot in front that joins it to an outer one, if it is joined by a dot. -/
def opened : List Char → List Char
  | [] => []
  | c :: cs => if c = '[' then c :: cs else '.' :: c :: cs

theorem opened_append {cs : List Char} (h : cs ≠ []) (rest : List Char) :
    opened (cs ++ rest) = opened cs ++ rest := by
  obtain ⟨c, cs, rfl⟩ := List.exists_cons_of_ne_nil h
  simp only [List.cons_append, opened]
  split <;> rfl

/-- Behind an outer segment a path stands with its dot. -/
theorem toList_attach {segment path : String} (hSegment : Framed segment) (hPath : Inner path) :
    (Error.attach segment path).toList = segment.toList ++ opened path.toList := by
  obtain ⟨c, cs, hChars⟩ := List.exists_cons_of_ne_nil (Path.toList_ne_nil hPath.visible)
  unfold Error.attach
  split
  · next hBracket =>
    -- what opens a bracket is attached as it is, and stands as it is among the marks
    rw [hChars] at hBracket
    rw [String.toList_append, hChars, opened, if_pos (Option.some.inj hBracket)]
  · next hBracket =>
    -- neither side has a dot where they meet, so the join puts one between them
    rw [hChars] at hBracket
    have hOther : c ≠ '[' := fun hSame => hBracket (congrArg some hSame)
    rw [Path.join_of_not_blank hSegment.visible hPath.visible, Path.joinBoth, hSegment.ends,
      hPath.starts]
    simp [hChars, opened, hOther]

/-! ## Segments -/

theorem framed_bracketed (inner : String) : Framed ("[" ++ inner ++ "]") where
  visible := by simp [Text.isBlank, Text.isBlankChar]
  starts := by simp [Path.startsWithDot]
  ends := by
    rw [Path.endsWithDot, String.toList_append, List.getLast?_append]
    rfl

/-- The characters that begin the next segment of a path. -/
def opensSegment (c : Char) : Bool :=
  c == '.' || c == '['

/-- A key that is written as it is: it shows, and no segment begins inside it. -/
structure Bare (key : String) : Prop where
  visible : Text.isBlank key = false
  closed : ∀ c ∈ key.toList, opensSegment c = false

theorem isBlank_of_trim_eq {key : String} (hEmpty : key ≠ "") (hTrim : Text.trim key = key) :
    Text.isBlank key = false := by
  by_contra hBlank
  have hAll : ∀ c ∈ key.toList, Text.isBlankChar c = true := by
    simpa [Text.isBlank] using hBlank
  -- trimming takes all blank characters off, so it would leave nothing
  have hNone : Text.trimChars key.toList = [] := by
    rw [Text.trimChars, List.dropWhile_eq_nil_iff.mpr hAll]
    rfl
  rw [Text.trim, hNone] at hTrim
  exact hEmpty hTrim.symm

theorem bare_of_not_needsQuotes {key : String} (h : Error.needsQuotes key = false) :
    Bare key := by
  simp only [Error.needsQuotes, Bool.or_eq_false_iff, decide_eq_false_iff_not, ne_eq,
    -- a key without quotes is not empty, has none of the special characters, and is trimmed already
    not_not, List.any_eq_false] at h
  obtain ⟨⟨hEmpty, hPlain⟩, hTrim⟩ := h
  refine ⟨isBlank_of_trim_eq hEmpty hTrim, fun c hMem => ?_⟩
  have hChar := hPlain c hMem
  simp only [Bool.or_eq_true, not_or, Bool.not_eq_true] at hChar
  exact Bool.or_eq_false_iff.mpr ⟨hChar.1.1.1, hChar.1.1.2⟩

theorem Bare.framed {key : String} (h : Bare key) : Framed key where
  visible := h.visible
  -- a dot at an end would be a character of the key
  starts := by
    refine decide_eq_false fun hDot => ?_
    have hMem := List.mem_of_head? hDot
    cases h.closed '.' hMem
  ends := by
    refine decide_eq_false fun hDot => ?_
    have hMem := List.mem_of_getLast? hDot
    cases h.closed '.' hMem

theorem Bare.opened_eq {key : String} (h : Bare key) : opened key.toList = '.' :: key.toList := by
  obtain ⟨c, cs, hChars⟩ := List.exists_cons_of_ne_nil (Path.toList_ne_nil h.visible)
  have hClosed := h.closed c (hChars ▸ List.mem_cons_self)
  rw [hChars, opened, if_neg]
  rintro rfl
  cases hClosed

theorem framed_segment (place : Place) : Framed place.segment := by
  cases place with
  | item index => exact framed_bracketed _
  | entry key =>
    show Framed (Error.keySegment key)
    unfold Error.keySegment
    split
    · -- a key in quotes stands in brackets
      exact framed_bracketed _
    -- any other key has neither dots nor brackets
    · next hBare => exact (bare_of_not_needsQuotes (Bool.not_eq_true _ ▸ hBare)).framed

/-! ## Marks -/

/-- The segment of a place, with the dot in front that joins it to an outer one. -/
def mark (place : Place) : List Char :=
  opened place.segment.toList

/-- An index and a quoted key are in brackets, a bare key has a dot in front. -/
theorem mark_cases (place : Place) :
    (∃ index, place = item index ∧ mark place = '[' :: (Nat.toDigits 10 index ++ [']'])) ∨
      (∃ key, place = entry key ∧ mark place = '[' :: ((Text.quote key).toList ++ [']'])) ∨
      ∃ key, place = entry key ∧ Bare key ∧ mark place = '.' :: key.toList := by
  cases place with
  | item index =>
    refine .inl ⟨index, rfl, ?_⟩
    simp [mark, segment, Error.indexSegment, opened]
  | entry key =>
    cases hQuotes : Error.needsQuotes key with
    | true =>
      refine .inr (.inl ⟨key, rfl, ?_⟩)
      simp [mark, segment, Error.keySegment, hQuotes, opened]
    | false =>
      have hBare := bare_of_not_needsQuotes hQuotes
      refine .inr (.inr ⟨key, rfl, hBare, ?_⟩)
      rw [← hBare.opened_eq, mark, segment, Error.keySegment, hQuotes]
      rfl

theorem opensSegment_of_head?_mark {place : Place} {c : Char} {rest : List Char}
    (h : (mark place ++ rest).head? = some c) : opensSegment c = true := by
  rcases mark_cases place with ⟨index, -, hMark⟩ | ⟨key, -, hMark⟩ | ⟨key, -, -, hMark⟩ <;>
    rw [hMark] at h <;> cases h <;> rfl

theorem index_prefixFree : Text.PrefixFree fun n => Nat.toDigits 10 n ++ [']'] :=
  Text.digits_prefixFree (by decide) (by decide) fun _ => Nat.digitChar_ne ']' (by decide)

/-- The digits of an index are no quoted key. -/
theorem toDigits_append_ne_quote (n : Nat) (key : String) (s t : List Char) :
    Nat.toDigits 10 n ++ s ≠ (Text.quote key).toList ++ t := by
  intro h
  have hQuote : ((Text.quote key).toList ++ t).head? = some '"' := by simp [Text.quote]
  rw [← h, List.head?_append_of_ne_nil _ Nat.toDigits_ne_nil] at hQuote
  have hDigit := Nat.isDigit_of_mem_toDigits (by decide) (by decide) (List.mem_of_head? hQuote)
  cases hDigit

/-- The first mark of a path can be read off when the next one follows, or nothing. -/
theorem mark_append_inj {p q : Place} {s t : List Char}
    (hLeft : ∀ c, s.head? = some c → opensSegment c = true)
    (hRight : ∀ c, t.head? = some c → opensSegment c = true)
    (h : mark p ++ s = mark q ++ t) : p = q ∧ s = t := by
  -- nine pairs of kinds, of which only those of one kind can begin alike
  rcases mark_cases p with ⟨i, rfl, hp⟩ | ⟨k, rfl, hp⟩ | ⟨k, rfl, hk, hp⟩ <;>
    rcases mark_cases q with ⟨j, rfl, hq⟩ | ⟨l, rfl, hq⟩ | ⟨l, rfl, hl, hq⟩ <;>
    simp only [hp, hq, List.cons_append, List.append_assoc, List.cons.injEq, true_and] at h
  -- an index against the three kinds of segments, then a quoted key, then a bare one
  · obtain ⟨rfl, hRest⟩ := index_prefixFree (by simpa using h)
    exact ⟨rfl, hRest⟩
  · exact absurd h (toDigits_append_ne_quote i l _ _)
  · exact absurd h.1 (by decide)
  · exact absurd h.symm (toDigits_append_ne_quote j k _ _)
  · obtain ⟨rfl, hRest⟩ := Text.quote_prefixFree h
    exact ⟨rfl, (List.cons.inj hRest).2⟩
  · exact absurd h.1 (by decide)
  · exact absurd h.1 (by decide)
  · exact absurd h.1 (by decide)
  · obtain ⟨hKeys, hRest⟩ := Text.append_inj_of_stops hk.closed hl.closed hLeft hRight h
    exact ⟨congrArg entry (String.toList_inj.mp hKeys), hRest⟩

/-! ## Trails -/

theorem inner_trail (place : Place) (places : List Place) : Inner (trail (place :: places)) :=
  (framed_segment place).toInner.attach _

theorem trail_singleton (place : Place) : trail [place] = place.segment :=
  Path.join_of_blank_right (framed_segment place).visible rfl

theorem toList_trail_cons (place : Place) (places : List Place) :
    (trail (place :: places)).toList = place.segment.toList ++ opened (trail places).toList := by
  cases places with
  | nil =>
    rw [trail_singleton]
    exact (List.append_nil _).symm
  | cons next places => exact toList_attach (framed_segment place) (inner_trail next places)

/-- A path with a dot in front of every bare key is the concatenation of its marks. -/
theorem opened_trail (places : List Place) :
    opened (trail places).toList = places.flatMap mark := by
  induction places with
  | nil => rfl
  | cons place places ih =>
    rw [toList_trail_cons, opened_append (Path.toList_ne_nil (framed_segment place).visible), ih,
      List.flatMap_cons, mark]

theorem opensSegment_of_head?_marks {places : List Place} {c : Char}
    (h : (places.flatMap mark).head? = some c) : opensSegment c = true := by
  cases places with
  | nil => cases h
  | cons place places => exact opensSegment_of_head?_mark h

theorem mark_ne_nil (place : Place) : mark place ≠ [] := by
  rcases mark_cases place with ⟨index, -, hMark⟩ | ⟨key, -, hMark⟩ | ⟨key, -, -, hMark⟩ <;>
    rw [hMark] <;> nofun

theorem marks_inj {places others : List Place}
    (h : places.flatMap mark = others.flatMap mark) : places = others := by
  induction places generalizing others with
  | nil =>
    -- a mark is never empty, so the two lists end together
    cases others with
    | nil => rfl
    | cons other others => exact absurd (List.append_eq_nil_iff.mp h.symm).1 (mark_ne_nil other)
  | cons place places ih =>
    cases others with
    | nil => exact absurd (List.append_eq_nil_iff.mp h).1 (mark_ne_nil place)
    | cons other others =>
      -- the first marks agree, since what follows a mark opens a new segment or is nothing
      obtain ⟨rfl, hRest⟩ := mark_append_inj (fun _ => opensSegment_of_head?_marks)
        (fun _ => opensSegment_of_head?_marks) h
      rw [ih hRest]

/-- Paths tell the places they lead through. -/
theorem trail_injective : Function.Injective trail := by
  intro places others h
  refine marks_inj ?_
  rw [← opened_trail, ← opened_trail, h]

end Place

namespace Error

/-! ## Annotated errors -/

theorem along_cons {e : Error} (hPlain : e.path? = none) (place : Place) (places : List Place) :
    e.along (place :: places) = located (Place.trail (place :: places)) e := by
  have hVisible : ∀ place : Place, place.segment ≠ "" := fun place =>
    Path.ne_empty_of_not_blank (Place.framed_segment place).visible
  -- the innermost place makes the annotation, the others lengthen its path
  induction places generalizing place with
  | nil =>
    rw [Place.trail_singleton]
    exact (Place.annotate_eq place e).trans (within_of_path?_eq_none (hVisible place) hPlain)
  | cons next places ih =>
    calc e.along (place :: next :: places)
        = (e.along (next :: places)).within place.segment := Place.annotate_eq ..
      _ = (located (Place.trail (next :: places)) e).within place.segment := by rw [ih]
      _ = located (Place.trail (place :: next :: places)) e := within_located (hVisible place) ..

/-- The path of an error that had none is the trail of the places it was passed through. -/
theorem path?_along {e : Error} (hPlain : e.path? = none) (places : List Place) :
    (e.along places).path? = if places = [] then none else some (Place.trail places) := by
  cases places with
  | nil => exact hPlain
  | cons place places =>
    rw [along_cons hPlain]
    rfl

/-- **The location of an error is unambiguous**: errors without a path of their own have the
same path only if they were passed through the same places. -/
theorem path?_along_eq_iff {e f : Error} (hLeft : e.path? = none) (hRight : f.path? = none)
    {places others : List Place} :
    (e.along places).path? = (f.along others).path? ↔ places = others := by
  rw [path?_along hLeft, path?_along hRight]
  constructor
  · -- no place at all leaves no path, and every trail is one
    intro h
    split at h <;> split at h
    · next hNone hOther => rw [hNone, hOther]
    · cases h
    · cases h
    · exact Place.trail_injective (Option.some.inj h)
  · rintro rfl
    rfl

/-- Keys that imitate other paths: an index, a quoted key and two segments. -/
theorem imitations_told_apart :
    let e := coercion "i64" "string"
    e.path? = none ∧
      -- in each pair the places differ, so the paths do
      (e.along [.entry "[0]"]).path? ≠ (e.along [.item 0]).path? ∧
      (e.along [.entry "[\"a\"]"]).path? ≠ (e.along [.entry "a"]).path? ∧
      (e.along [.entry "a.b"]).path? ≠ (e.along [.entry "a", .entry "b"]).path? :=
  ⟨rfl, fun h => absurd ((path?_along_eq_iff rfl rfl).mp h) (by decide),
    fun h => absurd ((path?_along_eq_iff rfl rfl).mp h) (by decide),
    fun h => absurd ((path?_along_eq_iff rfl rfl).mp h) (by decide)⟩

end Error

end TypedConfig
