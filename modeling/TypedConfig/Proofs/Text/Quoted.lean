import Mathlib.Tactic.Common
import TypedConfig.Text

/-!
# Quoted texts read back

Between its quotes a text stands as a code: every character has a word of its own, and a
word shows where it ends. A character that stands for itself is a word of length one, an
escape has a backslash in front and says by its second character how long it is, and the
digits of a code point run up to the closing brace. A bare quote begins no word, so the
first one that stands where a word could begin is the end of the text.

Main results:

* `Text.quoteChar_prefixFree` — the words of characters are told apart whatever follows.
* `Text.quote_prefixFree` — so are quoted texts.
-/

namespace TypedConfig.Text

/-! ## Words that show their end -/

variable {α : Type*}

/-- The words of a code can be told apart whatever follows them. -/
def PrefixFree (code : α → List Char) : Prop :=
  ∀ ⦃a b : α⦄ ⦃s t : List Char⦄, code a ++ s = code b ++ t → a = b ∧ s = t

/-- Two texts that run up to the first character that stops them. -/
theorem append_inj_of_stops {stops : Char → Bool} {a b s t : List Char}
    (hLeft : ∀ c ∈ a, stops c = false) (hRight : ∀ c ∈ b, stops c = false)
    (hBehindLeft : ∀ c, s.head? = some c → stops c = true)
    (hBehindRight : ∀ c, t.head? = some c → stops c = true) (h : a ++ s = b ++ t) :
    a = b ∧ s = t := by
  -- if one text ended earlier, the character that stops it would stand inside the other
  induction a generalizing b with
  | nil =>
    cases b with
    | nil => exact ⟨rfl, h⟩
    | cons c b =>
      -- the first text has ended, so what stops it would stand in the second
      have hStops : stops c = true := hBehindLeft c (congrArg List.head? h)
      rw [hRight c List.mem_cons_self] at hStops
      cases hStops
  | cons c a ih =>
    cases b with
    | nil =>
      -- the same with the second text
      have hStops : stops c = true := hBehindRight c (congrArg List.head? h.symm)
      rw [hLeft c List.mem_cons_self] at hStops
      cases hStops
    | cons d b =>
      -- both go on with the same character
      obtain ⟨rfl, hTails⟩ := List.cons.inj h
      obtain ⟨rfl, hRest⟩ := ih (fun e hMem => hLeft e (List.mem_cons_of_mem _ hMem))
        (fun e hMem => hRight e (List.mem_cons_of_mem _ hMem)) hTails
      exact ⟨rfl, hRest⟩

/-- Distinct words without a character become prefix free when it is put behind them. -/
theorem PrefixFree.of_stop {code : α → List Char} {stop : Char}
    (hInjective : Function.Injective code) (hFree : ∀ a, stop ∉ code a) :
    PrefixFree fun a => code a ++ [stop] := by
  intro a b s t h
  rw [List.append_assoc, List.append_assoc] at h
  have hStops : ∀ x, ∀ c ∈ code x, (c == stop) = false := fun x c hMem =>
    beq_eq_false_iff_ne.mpr fun hSame => hFree x (hSame ▸ hMem)
  -- both words run up to the stop
  obtain ⟨hWords, hRest⟩ := append_inj_of_stops (hStops a) (hStops b)
    (by simp) (by simp) h
  exact ⟨hInjective hWords, (List.cons.inj hRest).2⟩

/-- A text of words, closed by a character that begins none of them. -/
theorem PrefixFree.flatMap {code : α → List Char} {stop : Char} (h : PrefixFree code)
    (hBegins : ∀ a s, (code a ++ s).head? ≠ some stop) :
    PrefixFree fun as : List α => as.flatMap code ++ [stop] := by
  have hLonger : ∀ b bs t, ((b :: bs).flatMap code ++ [stop] ++ t).head? ≠ some stop := by
    intro b bs t
    rw [List.flatMap_cons, List.append_assoc, List.append_assoc]
    exact hBegins b _
  intro as
  induction as with
  | nil =>
    rintro (_ | ⟨b, bs⟩) s t hSame
    · -- both texts end
      exact ⟨rfl, (List.cons.inj hSame).2⟩
    · -- one ends with the stop, which begins no word of the other
      exact absurd (congrArg List.head? hSame).symm (hLonger b bs t)
  | cons a as ih =>
    rintro (_ | ⟨b, bs⟩) s t hSame
    · exact absurd (congrArg List.head? hSame) (hLonger a as s)
    · -- both begin with a word, and the code tells that it is the same
      simp only [List.flatMap_cons, List.append_assoc] at hSame
      obtain ⟨rfl, hTails⟩ := h hSame
      obtain ⟨rfl, hRest⟩ := @ih bs s t (by simpa only [List.append_assoc] using hTails)
      exact ⟨rfl, hRest⟩

/-! ## Digits -/

theorem digitChar_inj : ∀ m < 16, ∀ n < 16, m.digitChar = n.digitChar → m = n := by
  decide

/-- Up to base 16 the digits of a number tell the number. -/
theorem toDigits_injective {base : Nat} (hBase : 1 < base) (hSixteen : base ≤ 16) :
    Function.Injective (Nat.toDigits base) := by
  intro m
  induction m using Nat.strongRecOn with
  | ind m ih =>
    intro n h
    rw [Nat.toDigits_eq_if hBase, Nat.toDigits_eq_if hBase (n := n)] at h
    -- both have digits in front of the last one, or neither has
    split at h <;> split at h
    · exact digitChar_inj m (by omega) n (by omega) (List.cons.inj h).1
    · have hNone := (List.append_inj' (show [] ++ [m.digitChar] = _ from h) rfl).1
      exact absurd hNone.symm Nat.toDigits_ne_nil
    · have hNone := (List.append_inj' (show _ = [] ++ [n.digitChar] from h) rfl).1
      exact absurd hNone Nat.toDigits_ne_nil
    · -- the last digits are the same, and so are the numbers in front of them
      obtain ⟨hInit, hLast⟩ := List.append_inj' h rfl
      have hMod := digitChar_inj (m % base)
        (Nat.lt_of_lt_of_le (Nat.mod_lt _ (by omega)) hSixteen) (n % base)
        (Nat.lt_of_lt_of_le (Nat.mod_lt _ (by omega)) hSixteen) (List.cons.inj hLast).1
      have hDiv : m / base = n / base := ih (m / base) (Nat.div_lt_self (by omega) hBase) hInit
      rw [← Nat.div_add_mod m base, ← Nat.div_add_mod n base, hDiv, hMod]

theorem exists_digitChar_of_mem_toDigits {base n : Nat} (hBase : 1 < base) {c : Char}
    (h : c ∈ Nat.toDigits base n) : ∃ digit, c = Nat.digitChar digit := by
  induction n using Nat.strongRecOn with
  | ind n ih =>
    rw [Nat.toDigits_eq_if hBase] at h
    split at h
    · exact ⟨n, List.mem_singleton.mp h⟩
    · rcases List.mem_append.mp h with hInit | hLast
      · exact ih (n / base) (Nat.div_lt_self (by omega) hBase) hInit
      · exact ⟨n % base, List.mem_singleton.mp hLast⟩

/-- The digits of a number, closed by a character that is no digit. -/
theorem digits_prefixFree {base : Nat} (hBase : 1 < base) (hSixteen : base ≤ 16) {stop : Char}
    (hStop : ∀ digit : Nat, digit.digitChar ≠ stop) :
    PrefixFree fun n => Nat.toDigits base n ++ [stop] := by
  refine PrefixFree.of_stop (toDigits_injective hBase hSixteen) fun n hMem => ?_
  obtain ⟨digit, hDigit⟩ := exists_digitChar_of_mem_toDigits hBase hMem
  exact hStop digit hDigit.symm

/-! ## Characters -/

/-- The characters that are written by a backslash and one more character. -/
def escapes : List (Char × Char) :=
  [('"', '"'), ('\\', '\\'), ('\n', 'n'), ('\r', 'r'), ('\t', 't'), ('\x00', '0')]

/-- A character stands for itself, is escaped, or is written by its code point. -/
theorem quoteChar_cases (c : Char) :
    (∃ letter, (c, letter) ∈ escapes ∧ quoteChar c = ['\\', letter]) ∨
      quoteChar c = '\\' :: 'u' :: '{' :: (Nat.toDigits 16 c.toNat ++ ['}']) ∨
      c ≠ '"' ∧ c ≠ '\\' ∧ quoteChar c = [c] := by
  -- some of the escaped characters are invisible as well, and the escape comes first
  by_cases hEscaped : ∃ letter, (c, letter) ∈ escapes
  · obtain ⟨letter, hMem⟩ := hEscaped
    refine .inl ⟨letter, hMem, ?_⟩
    simp only [escapes, List.mem_cons, Prod.mk.injEq, List.not_mem_nil, or_false] at hMem
    rcases hMem with ⟨rfl, rfl⟩ | ⟨rfl, rfl⟩ | ⟨rfl, rfl⟩ | ⟨rfl, rfl⟩ | ⟨rfl, rfl⟩ | ⟨rfl, rfl⟩ <;>
      rfl
  · simp only [escapes, List.mem_cons, Prod.mk.injEq, List.not_mem_nil, or_false, not_exists,
      not_or, not_and] at hEscaped
    have hPlain : c ≠ '"' ∧ c ≠ '\\' ∧ c ≠ '\n' ∧ c ≠ '\r' ∧ c ≠ '\t' ∧ c ≠ '\x00' := by
      refine ⟨?_, ?_, ?_, ?_, ?_, ?_⟩ <;> rintro rfl <;> simp at hEscaped
    obtain ⟨hQuote, hBackslash, hLine, hReturn, hTab, hNull⟩ := hPlain
    cases hInvisible : isInvisible c with
    | true => simp [quoteChar, *]
    | false => simp [quoteChar, *]

theorem escapes_inj : ∀ p ∈ escapes, ∀ q ∈ escapes, p.2 = q.2 → p = q := by
  decide

/-- No escape of two characters reads like the beginning of a code point. -/
theorem escapes_ne_u : ∀ p ∈ escapes, p.2 ≠ 'u' := by
  decide

theorem codePoint_prefixFree : PrefixFree fun n => Nat.toDigits 16 n ++ ['}'] :=
  digits_prefixFree (by decide) (by decide) fun _ => Nat.digitChar_ne '}' (by decide)

theorem quoteChar_prefixFree : PrefixFree quoteChar := by
  intro c d s t h
  rcases quoteChar_cases c with ⟨x, hLeft, hc⟩ | hc | ⟨-, hLeft, hc⟩ <;>
    rcases quoteChar_cases d with ⟨y, hRight, hd⟩ | hd | ⟨-, hRight, hd⟩ <;>
    simp only [hc, hd, List.cons_append, List.nil_append, List.cons.injEq, true_and] at h
  -- an escape against the three ways of writing, then a code point, then a character itself
  · exact ⟨congrArg Prod.fst (escapes_inj _ hLeft _ hRight h.1), h.2⟩
  · exact absurd h.1 (escapes_ne_u _ hLeft)
  · exact absurd h.1.symm hRight
  · exact absurd h.1.symm (escapes_ne_u _ hRight)
  · obtain ⟨hCode, hRest⟩ := codePoint_prefixFree h
    exact ⟨Char.toNat_inj.mp hCode, hRest⟩
  · exact absurd h.1.symm hRight
  · exact absurd h.1 hLeft
  · exact absurd h.1 hLeft
  · exact h

/-- The first bare quote is the closing one. -/
theorem head?_quoteChar_append_ne (c : Char) (s : List Char) :
    (quoteChar c ++ s).head? ≠ some '"' := by
  intro h
  rcases quoteChar_cases c with ⟨x, -, hc⟩ | hc | ⟨hQuote, -, hc⟩ <;> rw [hc] at h
  · exact absurd (Option.some.inj h) (by decide)
  · exact absurd (Option.some.inj h) (by decide)
  · exact hQuote (Option.some.inj h)

theorem quote_prefixFree : PrefixFree fun s => (quote s).toList := by
  intro a b s t h
  simp only [quote, String.toList_ofList, List.cons_append, List.cons.injEq, true_and] at h
  obtain ⟨hChars, hRest⟩ := quoteChar_prefixFree.flatMap head?_quoteChar_append_ne h
  exact ⟨String.toList_inj.mp hChars, hRest⟩

end TypedConfig.Text
