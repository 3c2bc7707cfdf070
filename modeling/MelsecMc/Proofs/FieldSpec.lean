/-
Which field specs parse.

The types of a field are told apart by a chain of tests on their ends: whatever begins with
`words` is an array of words, and of a width every `le` and then every `be` at the end is taken
off.  `ReadAs` is what that comes to, and `parseFieldSpec_eq_ok_iff` says that nothing else
parses.  Every documented type is among it; what else is, is `Overlooked`
(`field_spec_iff`).
-/
import Mathlib.Data.Bool.AllAny
import MelsecMc.Proofs.Text

namespace MelsecMc

open Text

/-! ### What the tests let pass -/

/-- The types `parse_field_spec` takes, with what it takes them for. -/
inductive ReadAs : FieldKind → Text → Prop
  | bytes {typ : Text} (h : typ = "rest".toList ∨ typ = "..".toList ∨ typ = "bytes".toList) :
      ReadAs .bytes typ
  | words (rest : Text) :
      ReadAs (.words ("le".toList.isSuffixOf ("words".toList ++ rest))) ("words".toList ++ rest)
  | width {s ds : Text} {n : Nat} (hs : MaybeSigned ds s) (h : IsWidth ds n) (be le : Nat) :
      ReadAs (.fixedBytes n (decide (0 < le ∨ be = 0))) (s ++ (pairs 'b' 'e' be ++ pairs 'l' 'e' le))
  | asciiHex : ReadAs .asciiHex "ascii_hex".toList

/-- A character that no type but a width begins with. -/
def BeginsWidth (c : Char) : Prop :=
  c = '+' ∨ ('0' ≤ c ∧ c ≤ '9')

instance : DecidablePred BeginsWidth := fun c =>
  inferInstanceAs (Decidable (c = '+' ∨ ('0' ≤ c ∧ c ≤ '9')))

theorem not_beginsWidth : ∀ c ∈ "rwb.a".toList, ¬ BeginsWidth c :=
  List.all_iff_forall_prop.mp (by decide)

theorem IsWidth.digit {ds : Text} {n : Nat} (h : IsWidth ds n) : ∀ c ∈ ds, '0' ≤ c ∧ c ≤ '9' :=
  fun c hc => toDigit_ten_isSome (h.1.isSome c hc)

/-- A width begins with a digit or a sign, and ends with a digit. -/
theorem exists_ends {s ds : Text} {n : Nat} (hs : MaybeSigned ds s) (h : IsWidth ds n) :
    (∃ c rest, s = c :: rest ∧ BeginsWidth c) ∧
      ∃ front c, s = front ++ [c] ∧ '0' ≤ c ∧ c ≤ '9' := by
  have hne : ds ≠ [] := h.1.1
  obtain ⟨c, rest, hcons⟩ := List.exists_cons_of_ne_nil hne
  have hlast : ds = ds.dropLast ++ [ds.getLast hne] := (List.dropLast_append_getLast hne).symm
  have hdigit := h.digit _ (List.getLast_mem hne)
  cases hs with
  | unsigned =>
      refine ⟨⟨c, rest, hcons, .inr (h.digit c ?_)⟩, _, _, hlast, hdigit⟩
      rw [hcons]
      exact List.mem_cons_self
  | signed => exact ⟨⟨'+', ds, rfl, .inl rfl⟩, '+' :: ds.dropLast, _, congrArg _ hlast, hdigit⟩

/-! ### Suffixes

Trimming takes off a pair of characters as often as it is there.  Behind a number, which has
neither `e` nor `l` nor `b` in it, that is as often as it was written.
-/

theorem pairs_succ_right (x y : Char) (k : Nat) : pairs x y (k + 1) = pairs x y k ++ [x, y] := by
  induction k with
  | zero => rfl
  | succ k ih => exact congrArg (x :: y :: ·) ih

theorem length_pairs (x y : Char) (k : Nat) : (pairs x y k).length = 2 * k := by
  induction k with
  | zero => rfl
  | succ k ih =>
      rw [pairs, List.length_cons, List.length_cons, ih]
      omega

/-- Two characters at the end of a string are the ones it ends with. -/
theorem append_pair_inj {front front' : Text} {a b x y : Char}
    (h : front ++ [a, b] = front' ++ [x, y]) : a = x ∧ b = y := by
  have hpair := (List.append_inj' h rfl).2
  rw [List.cons.injEq, List.cons.injEq] at hpair
  exact ⟨hpair.1, hpair.2.1⟩

/-- A width without suffixes does not end in a pair of letters. -/
theorem width_not_pair {s ds : Text} {n : Nat} (hs : MaybeSigned ds s) (h : IsWidth ds n) {x y : Char}
    (hy : ¬ ('0' ≤ y ∧ y ≤ '9')) (front : Text) : s ≠ front ++ [x, y] := by
  obtain ⟨-, front', c, rfl, hc⟩ := exists_ends hs h
  intro heq
  have hlast := congrArg List.getLast? heq
  rw [List.getLast?_append, List.getLast?_append] at hlast
  have hcy : c = y := by simpa using hlast
  exact hy (hcy ▸ hc)

section Suffixes

variable {s ds : Text} {n : Nat} (hs : MaybeSigned ds s) (h : IsWidth ds n) (be le : Nat)

include hs h

/-- Nothing but the pairs `be` in front: the string does not end in `le`. -/
theorem be_not_le (front : Text) : s ++ pairs 'b' 'e' be ≠ front ++ ['l', 'e'] := by
  cases be with
  | zero =>
      rw [pairs, List.append_nil]
      exact width_not_pair hs h (by decide) front
  | succ k =>
      rw [pairs_succ_right, ← List.append_assoc]
      exact fun heq => absurd (append_pair_inj heq).1 (by decide)

theorem isSuffixOf_le_iff :
    "le".toList.isSuffixOf (s ++ (pairs 'b' 'e' be ++ pairs 'l' 'e' le)) = true ↔ 0 < le := by
  rw [List.isSuffixOf_iff_suffix, ← List.append_assoc]
  cases le with
  | zero =>
      rw [pairs, List.append_nil]
      constructor
      · rintro ⟨front, hfront⟩
        exact absurd hfront.symm (be_not_le hs h be front)
      · exact fun hlt => absurd hlt (by decide)
  | succ k =>
      rw [pairs_succ_right, ← List.append_assoc]
      exact ⟨fun _ => Nat.succ_pos k, fun _ => List.suffix_append _ _⟩

/-- Without a `le` at the end, a `be` is there if there is one at all. -/
theorem isSuffixOf_be_iff : "be".toList.isSuffixOf (s ++ pairs 'b' 'e' be) = true ↔ 0 < be := by
  rw [List.isSuffixOf_iff_suffix]
  cases be with
  | zero =>
      rw [pairs, List.append_nil]
      constructor
      · rintro ⟨front, hfront⟩
        exact absurd hfront.symm (width_not_pair hs h (by decide) front)
      · exact fun hlt => absurd hlt (by decide)
  | succ k =>
      rw [pairs_succ_right, ← List.append_assoc]
      exact ⟨fun _ => Nat.succ_pos k, fun _ => List.suffix_append _ _⟩

/-- Trimmed of its pairs, a width is what is left. -/
theorem trimEndPair_width : trimEndPair 'b' 'e'
    (trimEndPair 'l' 'e' (s ++ (pairs 'b' 'e' be ++ pairs 'l' 'e' le))) = s := by
  rw [← List.append_assoc, trimEndPair_pairs, trimEndPair_of_not _ _ (be_not_le hs h be),
    trimEndPair_pairs, trimEndPair_of_not _ _ (width_not_pair hs h (by decide))]

end Suffixes

/-! ### The chain of tests

The tests overlap, so their order matters.  What is read as a width has passed none of the tests
in front of it, and a number passes none of them.
-/

/-- A width is none of the words the chain tests for. -/
theorem width_not_word {c : Char} {typ : Text} (hc : BeginsWidth c) {word : Text} {w : Char}
    (hw : w ∈ "rwb.a".toList) (hword : word.head? = some w) : ¬ word <+: c :: typ := by
  rintro ⟨rest, hrest⟩
  cases word with
  | nil => cases hword
  | cons x word =>
      rw [List.head?_cons, Option.some.injEq] at hword
      rw [List.cons_append, List.cons.injEq] at hrest
      rw [← hrest.1, hword] at hc
      exact not_beginsWidth w hw hc

/-- What is left of a type without its pairs parses, so the type is a width with them. -/
theorem readAs_of_suffix {typ : Text} {n : Nat}
    (hsuffix : "le".toList.isSuffixOf typ = true ∨ "be".toList.isSuffixOf typ = true)
    (hparse : parseUnsigned 10 usizeBound (trimEndPair 'b' 'e' (trimEndPair 'l' 'e' typ)) = some n) :
    ReadAs (.fixedBytes n ("le".toList.isSuffixOf typ)) typ := by
  obtain ⟨hlt, ds, hs, hds⟩ := parseUnsigned_eq_some_iff.mp hparse
  obtain ⟨le, hle⟩ := exists_trimEndPair 'l' 'e' typ
  obtain ⟨be, hbe⟩ := exists_trimEndPair 'b' 'e' (trimEndPair 'l' 'e' typ)
  generalize trimEndPair 'b' 'e' (trimEndPair 'l' 'e' typ) = w at hs hbe
  rw [hbe, List.append_assoc] at hle
  have hwidth : IsWidth ds n := ⟨hds, hlt⟩
  have hleSuffix := isSuffixOf_le_iff hs hwidth be le
  rw [← hle] at hleSuffix
  have hflag : "le".toList.isSuffixOf typ = decide (0 < le ∨ be = 0) := by
    rw [Bool.eq_iff_iff, hleSuffix, decide_eq_true_eq]
    refine ⟨.inl, fun h => h.elim id fun hzero => ?_⟩
    -- neither pair at the end: the suffix that was found is the width's own end
    by_contra hnot
    have hlezero : le = 0 := by omega
    rw [hlezero, hzero, pairs, pairs, List.append_nil, List.append_nil] at hle
    rcases hsuffix with hsuffix | hsuffix
    · exact hnot (hleSuffix.mp hsuffix)
    · obtain ⟨front, hfront⟩ := List.isSuffixOf_iff_suffix.mp hsuffix
      exact width_not_pair hs hwidth (by decide) front (hle.symm.trans hfront.symm)
  have hread := ReadAs.width hs hwidth be le
  rw [← hflag, ← hle] at hread
  exact hread

section Chain

variable {s : String} {name typ : Text} (hsplit : splitOnce ':' s.toList = some (name, typ))

include hsplit

theorem parseFieldSpec_width {w ds : Text} {n : Nat} (hs : MaybeSigned ds w) (h : IsWidth ds n)
    {be le : Nat} (htyp : typ = w ++ (pairs 'b' 'e' be ++ pairs 'l' 'e' le)) :
    parseFieldSpec s = .ok ⟨String.ofList name, .fixedBytes n (decide (0 < le ∨ be = 0))⟩ := by
  have hparse : parseUnsigned 10 usizeBound w = some n :=
    parseUnsigned_eq_some_iff.mpr ⟨h.2, ds, hs, h.1⟩
  obtain ⟨c, rest, hcons, hbegins⟩ := (exists_ends hs h).1
  have hnot : ∀ word : Text, (∃ x ∈ "rwb.a".toList, word.head? = some x) → ¬ word <+: typ := by
    rintro word ⟨x, hx, hword⟩
    rw [htyp, hcons, List.cons_append]
    exact width_not_word hbegins hx hword
  have hne : ∀ word : Text, (∃ x ∈ "rwb.a".toList, word.head? = some x) → typ ≠ word :=
    fun word hword heq => hnot word hword ⟨[], by rw [List.append_nil, heq]⟩
  have hle : "le".toList.isSuffixOf typ = decide (0 < le) := by
    rw [htyp, Bool.eq_iff_iff, isSuffixOf_le_iff hs h be le, decide_eq_true_eq]
  unfold parseFieldSpec
  rw [hsplit]
  dsimp only
  rw [if_neg (not_or.mpr ⟨hne _ ⟨'r', by decide, rfl⟩, hne _ ⟨'.', by decide, rfl⟩⟩),
    if_neg (hne _ ⟨'b', by decide, rfl⟩),
    if_neg fun hp => hnot _ ⟨'w', by decide, rfl⟩ (List.isPrefixOf_iff_prefix.mp hp), hle]
  by_cases hpos : 0 < le
  · rw [if_pos (.inl (decide_eq_true hpos)), htyp, trimEndPair_width hs h, hparse]
    simp [hpos]
  · have hzero : le = 0 := by omega
    have htyp' : typ = w ++ pairs 'b' 'e' be := by rw [htyp, hzero, pairs, List.append_nil]
    have hbe : "be".toList.isSuffixOf typ = decide (0 < be) := by
      rw [htyp', Bool.eq_iff_iff, isSuffixOf_be_iff hs h be, decide_eq_true_eq]
    rw [hbe]
    by_cases hbpos : 0 < be
    · rw [if_pos (.inr (decide_eq_true hbpos)), htyp, trimEndPair_width hs h, hparse]
      simp [hpos]
      omega
    · have hbzero : be = 0 := by omega
      have hwidth : typ = w := by rw [htyp', hbzero, pairs, List.append_nil]
      rw [if_neg (by simp [hpos, hbpos]), if_neg (hne _ ⟨'a', by decide, rfl⟩), hwidth, hparse]
      simp [hbzero]

theorem parseFieldSpec_of_readAs {kind : FieldKind} (h : ReadAs kind typ) :
    parseFieldSpec s = .ok ⟨String.ofList name, kind⟩ := by
  cases h with
  | bytes h =>
      unfold parseFieldSpec
      rw [hsplit]
      rcases h with rfl | rfl | rfl
      · rfl
      · rfl
      · rfl
  | words rest =>
      have hne : ∀ word : Text, word.head? ≠ some 'w' → "words".toList ++ rest ≠ word :=
        fun word hword heq => hword (heq ▸ rfl)
      unfold parseFieldSpec
      rw [hsplit]
      dsimp only
      rw [if_neg (not_or.mpr ⟨hne _ (by decide), hne _ (by decide)⟩), if_neg (hne _ (by decide)),
        if_pos (List.isPrefixOf_iff_prefix.mpr (List.prefix_append _ _))]
  | asciiHex =>
      unfold parseFieldSpec
      rw [hsplit]
      rfl
  | width hs h be le => exact parseFieldSpec_width hsplit hs h rfl

theorem readAs_of_parseFieldSpec {f : FieldSpec} (hok : parseFieldSpec s = .ok f) :
    f.name = String.ofList name ∧ ReadAs f.kind typ := by
  unfold parseFieldSpec protocolError at hok
  rw [hsplit] at hok
  dsimp only at hok
  split at hok
  · rename_i hword
    cases hok
    exact ⟨rfl, .bytes (hword.imp id .inl)⟩
  · split at hok
    · rename_i hword
      cases hok
      exact ⟨rfl, .bytes (.inr (.inr hword))⟩
    · split at hok
      · rename_i hwords
        obtain ⟨rest, rfl⟩ := List.isPrefixOf_iff_prefix.mp hwords
        cases hok
        exact ⟨rfl, .words rest⟩
      · split at hok
        · rename_i hsuffix
          split at hok
          · rename_i n hparse
            cases hok
            exact ⟨rfl, readAs_of_suffix hsuffix hparse⟩
          · cases hok
        · split at hok
          · rename_i hhex
            cases hok
            rw [hhex]
            exact ⟨rfl, .asciiHex⟩
          · split at hok
            · rename_i n hparse
              obtain ⟨hlt, ds, hs, hds⟩ := parseUnsigned_eq_some_iff.mp hparse
              cases hok
              have hread := ReadAs.width hs ⟨hds, hlt⟩ 0 0
              rw [pairs, pairs, List.append_nil, List.append_nil] at hread
              exact ⟨rfl, hread⟩
            · cases hok

end Chain

/-- **The chain of tests reads these types and no others.** -/
theorem parseFieldSpec_eq_ok_iff {s : String} {f : FieldSpec} :
    parseFieldSpec s = .ok f ↔ ':' ∉ f.name.toList ∧
      ∃ typ, s.toList = f.name.toList ++ ':' :: typ ∧ ReadAs f.kind typ := by
  constructor
  · intro hok
    cases hsplit : splitOnce ':' s.toList with
    | none =>
        unfold parseFieldSpec at hok
        rw [hsplit] at hok
        cases hok
    | some parts =>
        obtain ⟨name, typ⟩ := parts
        obtain ⟨hname, hread⟩ := readAs_of_parseFieldSpec hsplit hok
        obtain ⟨hs, hcolon⟩ := splitOnce_eq_some_iff.mp hsplit
        rw [hname, String.toList_ofList]
        exact ⟨hcolon, typ, hs, hread⟩
  · rintro ⟨hcolon, typ, hs, hread⟩
    have hsplit := splitOnce_eq_some_iff.mpr ⟨hs, hcolon⟩
    rw [parseFieldSpec_of_readAs hsplit hread, String.ofList_toList]

/-! ### Documented types, and the others

Every documented type passes the chain as what it is.  Of the rest some pass too: these are
listed, and everything else is refused.
-/

theorem FieldType.readAs {kind : FieldKind} {typ : Text} (h : FieldType kind typ) :
    ReadAs kind typ := by
  cases h with
  | @width ds n h =>
      have hread := ReadAs.width .unsigned h 0 0
      rw [pairs, pairs, List.append_nil, List.append_nil] at hread
      exact hread
  | widthLe h => exact ReadAs.width .unsigned h 0 1
  | widthBe h => exact ReadAs.width .unsigned h 1 0
  | wordsLe => exact .words "_le".toList
  | wordsBe => exact .words "_be".toList
  | bytes => exact .bytes (.inr (.inr rfl))
  | rest => exact .bytes (.inl rfl)
  | dots => exact .bytes (.inr (.inl rfl))
  | asciiHex => exact .asciiHex

/-- What is read and not documented was overlooked. -/
theorem ReadAs.fieldType {kind : FieldKind} {typ : Text} (h : ReadAs kind typ) :
    FieldType kind typ ∨ Overlooked typ := by
  cases h with
  | bytes h =>
      rcases h with rfl | rfl | rfl
      · exact .inl .rest
      · exact .inl .dots
      · exact .inl .bytes
  | words rest =>
      by_cases hle : rest = "_le".toList
      · rw [hle]
        exact .inl .wordsLe
      · by_cases hbe : rest = "_be".toList
        · rw [hbe]
          exact .inl .wordsBe
        · exact .inr (.words hle hbe)
  | asciiHex => exact .inl .asciiHex
  | @width w ds n hs h be le =>
      cases hs with
      | signed => exact .inr (.signed h be le)
      | unsigned =>
          rcases Nat.lt_or_ge 1 (be + le) with htwo | hone
          · exact .inr (.suffixes h htwo)
          · left
            have hfew : be = 0 ∧ le = 0 ∨ be = 1 ∧ le = 0 ∨ be = 0 ∧ le = 1 := by omega
            rcases hfew with ⟨rfl, rfl⟩ | ⟨rfl, rfl⟩ | ⟨rfl, rfl⟩
            · rw [pairs, pairs, List.append_nil, List.append_nil]
              exact .width h
            · exact .widthBe h
            · exact .widthLe h

/-- Digits, and then none. -/
structure DigitsThen (typ suffix : Text) : Prop where
  front : ∃ ds n, IsWidth ds n ∧ typ = ds ++ suffix
  noDigit : ∀ c ∈ suffix, ¬ ('0' ≤ c ∧ c ≤ '9')

/-- Where the digits end, the suffix begins. -/
theorem DigitsThen.unique {typ suffix suffix' : Text} (h : DigitsThen typ suffix)
    (h' : DigitsThen typ suffix') : suffix = suffix' := by
  have hdrop : ∀ suffix, DigitsThen typ suffix →
      typ.dropWhile (fun c => decide ('0' ≤ c ∧ c ≤ '9')) = suffix := by
    rintro suffix ⟨⟨ds, n, hds, rfl⟩, hnone⟩
    refine Trimming.dropWhile_append ?_ fun c hc => decide_eq_true (hds.digit c hc)
    exact fun c hc => decide_eq_false (hnone c (List.mem_of_head? hc))
  rw [← hdrop suffix h, hdrop suffix' h']

theorem FieldType.cases_typ {kind : FieldKind} {typ : Text} (h : FieldType kind typ) :
    (∃ suffix, DigitsThen typ suffix ∧ suffix.length ≤ 2) ∨
      typ ∈ ["words_le".toList, "words_be".toList, "bytes".toList, "rest".toList, "..".toList,
        "ascii_hex".toList] := by
  cases h with
  | width h =>
      exact .inl ⟨[], ⟨⟨_, _, h, (List.append_nil _).symm⟩, fun c hc => absurd hc List.not_mem_nil⟩,
        Nat.zero_le 2⟩
  | widthLe h =>
      exact .inl ⟨_, ⟨⟨_, _, h, rfl⟩, List.all_iff_forall_prop.mp (by decide)⟩, Nat.le_refl 2⟩
  | widthBe h =>
      exact .inl ⟨_, ⟨⟨_, _, h, rfl⟩, List.all_iff_forall_prop.mp (by decide)⟩, Nat.le_refl 2⟩
  | wordsLe => exact .inr (by decide)
  | wordsBe => exact .inr (by decide)
  | bytes => exact .inr (by decide)
  | rest => exact .inr (by decide)
  | dots => exact .inr (by decide)
  | asciiHex => exact .inr (by decide)

theorem mem_pairs {x y c : Char} {k : Nat} (h : c ∈ pairs x y k) : c = x ∨ c = y := by
  induction k with
  | zero => exact absurd h List.not_mem_nil
  | succ k ih =>
      rcases List.mem_cons.mp h with hx | h
      · exact .inl hx
      · rcases List.mem_cons.mp h with hy | h
        · exact .inr hy
        · exact ih h

theorem DigitsThen.head {typ suffix : Text} (h : DigitsThen typ suffix) :
    ∃ c rest, typ = c :: rest ∧ '0' ≤ c ∧ c ≤ '9' := by
  obtain ⟨ds, n, hds, rfl⟩ := h.front
  obtain ⟨c, rest, rfl⟩ := List.exists_cons_of_ne_nil hds.1.1
  exact ⟨c, rest ++ suffix, rfl, hds.digit c List.mem_cons_self⟩

/-- None of the words begins like a width. -/
theorem exists_head_of_word : ∀ word ∈ ["words_le".toList, "words_be".toList, "bytes".toList,
    "rest".toList, "..".toList, "ascii_hex".toList],
    ∃ c ∈ "rwb.a".toList, word.head? = some c := by
  intro word hword
  simp only [List.mem_cons, List.not_mem_nil, or_false] at hword
  rcases hword with rfl | rfl | rfl | rfl | rfl | rfl
  · exact ⟨'w', by decide, rfl⟩
  · exact ⟨'w', by decide, rfl⟩
  · exact ⟨'b', by decide, rfl⟩
  · exact ⟨'r', by decide, rfl⟩
  · exact ⟨'.', by decide, rfl⟩
  · exact ⟨'a', by decide, rfl⟩

/-- The words that begin with `words`. -/
theorem words_rest : ∀ word ∈ ["words_le".toList, "words_be".toList, "bytes".toList,
    "rest".toList, "..".toList, "ascii_hex".toList], "words".toList <+: word →
    word.drop 5 = "_le".toList ∨ word.drop 5 = "_be".toList := by
  decide

theorem FieldType.not_overlooked {kind : FieldKind} {typ : Text} (h : FieldType kind typ) :
    ¬ Overlooked typ := by
  intro ho
  rcases h.cases_typ with ⟨suffix, hdigits, hlen⟩ | hword
  · obtain ⟨c, rest, hc, hdigit⟩ := hdigits.head
    cases ho with
    | words hle hbe =>
        rw [show "words".toList = 'w' :: "ords".toList from rfl, List.cons_append,
          List.cons.injEq] at hc
        rw [← hc.1] at hdigit
        exact absurd hdigit (by decide)
    | signed h be le =>
        rw [List.cons_append, List.cons.injEq] at hc
        rw [← hc.1] at hdigit
        exact absurd hdigit (by decide)
    | @suffixes ds n be le hwidth htwo =>
        have hpairs : DigitsThen (ds ++ (pairs 'b' 'e' be ++ pairs 'l' 'e' le))
            (pairs 'b' 'e' be ++ pairs 'l' 'e' le) := by
          refine ⟨⟨ds, n, hwidth, rfl⟩, fun c hc => ?_⟩
          rcases List.mem_append.mp hc with hbe | hle
          · rcases mem_pairs hbe with rfl | rfl
            · decide
            · decide
          · rcases mem_pairs hle with rfl | rfl
            · decide
            · decide
        rw [hdigits.unique hpairs, List.length_append, length_pairs, length_pairs] at hlen
        omega
  · obtain ⟨c, hc, hhead⟩ := exists_head_of_word typ hword
    cases ho with
    | words hle hbe =>
        rcases words_rest _ hword (List.prefix_append _ _) with hrest | hrest
        · exact hle hrest
        · exact hbe hrest
    | signed hwidth be le =>
        rw [List.cons_append, List.head?_cons, Option.some.injEq] at hhead
        exact not_beginsWidth c hc (.inl hhead.symm)
    | @suffixes ds n be le hwidth htwo =>
        obtain ⟨d, rest, rfl⟩ := List.exists_cons_of_ne_nil hwidth.1.1
        rw [List.cons_append, List.head?_cons, Option.some.injEq] at hhead
        exact not_beginsWidth c hc (.inr (hhead ▸ hwidth.digit d List.mem_cons_self))

/-- What was overlooked is read as something. -/
theorem Overlooked.readAs {typ : Text} (h : Overlooked typ) : ∃ kind, ReadAs kind typ := by
  cases h with
  | words hle hbe => exact ⟨_, .words _⟩
  | signed h be le => exact ⟨_, .width .signed h be le⟩
  | suffixes h htwo => exact ⟨_, .width .unsigned h _ _⟩

/-- **Exactly the documented field specs parse, and to what they say, as long as the type is none
of the overlooked ones.** -/
theorem field_spec_iff (s : String) :
    (∀ f, parseFieldSpec s = .ok f ↔ IsFieldSpec s f) ↔
      ∀ name typ : Text, s.toList = name ++ ':' :: typ → ':' ∉ name → ¬ Overlooked typ := by
  constructor
  · intro h name typ hs hcolon hoverlooked
    obtain ⟨kind, hread⟩ := hoverlooked.readAs
    have hok := parseFieldSpec_of_readAs (splitOnce_eq_some_iff.mpr ⟨hs, hcolon⟩) hread
    obtain ⟨hname, typ', hs', htype⟩ := (h _).mp hok
    rw [String.toList_ofList] at hname hs'
    have hsame : typ' = typ := by
      have hsplit := splitOnce_eq_some_iff.mpr ⟨hs', hname⟩
      rw [splitOnce_eq_some_iff.mpr ⟨hs, hcolon⟩, Option.some.injEq, Prod.mk.injEq] at hsplit
      exact hsplit.2.symm
    rw [hsame] at htype
    exact htype.not_overlooked hoverlooked
  · intro h f
    rw [parseFieldSpec_eq_ok_iff]
    constructor
    · rintro ⟨hcolon, typ, hs, hread⟩
      exact ⟨hcolon, typ, hs, hread.fieldType.resolve_right (h _ typ hs hcolon)⟩
    · rintro ⟨hcolon, typ, hs, htype⟩
      exact ⟨hcolon, typ, hs, htype.readAs⟩

/-- An array of words in the byte order of a misspelled suffix. -/
theorem field_spec_fails :
    parseFieldSpec "data:words_big" = .ok ⟨"data", .words false⟩ ∧
    ¬ ∀ (s : String) (f : FieldSpec), parseFieldSpec s = .ok f ↔ IsFieldSpec s f := by
  refine ⟨by decide +kernel, fun h => ?_⟩
  have hoverlooked : Overlooked "words_big".toList := .words (by decide) (by decide)
  have hok : parseFieldSpec "data:words_big" = .ok ⟨"data", .words false⟩ := by decide +kernel
  obtain ⟨-, typ, hs, htype⟩ := (h _ _).mp hok
  have hsplit : "data".toList ++ ':' :: typ = "data".toList ++ ':' :: "words_big".toList := hs.symm
  have hsame := (List.cons.inj (List.append_cancel_left hsplit)).2
  rw [hsame] at htype
  exact htype.not_overlooked hoverlooked

end MelsecMc
