import Mathlib
import ClusterSweep.Simulation
import ClusterSweep.Reduction.Run
import ClusterSweep.Proofs.Rounding

/-!
# What the simulated clients write reads back

`Runner.recording` writes, for client `i` of a run with `R` requests per client, a latency file
with the samples `k + i` for `k = 1 … R`, one per line, and an execution summary `totalTime 1.00`,
`totalOps R`.  This module shows that the reduction reads those files back as they were meant:

* the lines of a text of ASCII lines, each ended by a line feed, are those lines
  (`Text.decodeLines_join`), by way of the bytes of an ASCII text (`Text.toList_toUTF8`);
* the text of a number that is neither a NaN nor negative is a numeral (`Binary64.IsNumeral`):
  digits, perhaps with a point, or `inf`, which reads back as a number that is no NaN
  (`Binary64.plainText_isNumeral`), so a latency file holds exactly one sample per request
  (`Latency.parseSamples_latencyText`);
* a count's decimal text reads back as the count (`Text.readUnsigned_toString`), so a summary
  reads back as one second and its operations (`Throughput.parse_summaryText`);
* dividing by one is exact (`Binary64.div_one_eq_self`), so clients of one second each run at
  their total operations per second (`Throughput.aggregate_replicate`).
-/

namespace ClusterSweep.Text

/-! ## Bytes of ASCII text -/

/-- The list loop has read the bytes below `i` onto `r`, reversed, and the rest follows. -/
theorem toList_loop_eq (bs : ByteArray) (i : Nat) (r : List UInt8) :
    ByteArray.toList.loop bs i r = r.reverse ++ bs.data.toList.drop i := by
  fun_induction ByteArray.toList.loop bs i r with
  | case1 i r hi ih =>
    -- one byte more read: the byte at `i` moves from the rest onto `r`
    have hlen : i < bs.data.toList.length := by simpa using hi
    have hcons : bs.data.toList.drop i = bs.data.toList[i] :: bs.data.toList.drop (i + 1) :=
      List.drop_eq_getElem_cons hlen
    rw [ih, hcons]
    simp [ByteArray.get!, hi]
  | case2 i r hi =>
    -- past the end nothing is left
    have hnil : bs.data.toList.drop i = [] :=
      List.drop_eq_nil_of_le (by simpa using Nat.le_of_not_lt hi)
    rw [hnil, List.append_nil]

theorem toList_eq_data_toList (bs : ByteArray) : bs.toList = bs.data.toList := by
  rw [ByteArray.toList, toList_loop_eq]
  simp

/-- A byte array is the array of its list of bytes. -/
theorem mk_toArray_toList (bs : ByteArray) : ByteArray.mk bs.toList.toArray = bs := by
  rw [toList_eq_data_toList, Array.toArray_toList]

theorem fromUTF8?_toUTF8 (s : String) : String.fromUTF8? s.toUTF8 = some s := by
  simp only [String.fromUTF8?, String.toUTF8_eq_toByteArray, dif_pos s.isValidUTF8]
  rfl

theorem toNat_toUInt8 {ch : Char} (h : ch.toNat < 128) : ch.toUInt8.toNat = ch.toNat := by
  have h' : ch.val.toNat < 128 := h
  show ch.val.toUInt8.toNat = ch.val.toNat
  rw [UInt32.toNat_toUInt8]
  omega

theorem eq_of_toUInt8_eq {ch c : Char} (hch : ch.toNat < 128) (hc : c.toNat < 128)
    (h : ch.toUInt8 = c.toUInt8) : ch = c := by
  have := congrArg UInt8.toNat h
  rw [toNat_toUInt8 hch, toNat_toUInt8 hc] at this
  exact Char.ext (UInt32.toNat_inj.1 this)

theorem flatMap_utf8EncodeChar {l : List Char} (h : ∀ ch ∈ l, ch.toNat < 128) :
    l.flatMap String.utf8EncodeChar = l.map Char.toUInt8 := by
  induction l with
  | nil => rfl
  | cons ch l ih =>
    have hval : ch.val ≤ 127 := UInt32.le_iff_toNat_le.2 (Nat.le_of_lt_succ (h ch (.head _)))
    rw [List.flatMap_cons, List.map_cons,
      String.utf8EncodeChar_eq_singleton (Char.utf8Size_eq_one_iff.2 hval),
      ih fun c hc => h c (.tail _ hc)]
    rfl

theorem toList_toUTF8 {s : String} (h : ∀ ch ∈ s.toList, ch.toNat < 128) :
    s.toUTF8.toList = s.toList.map Char.toUInt8 := by
  rw [toList_eq_data_toList, String.toUTF8_eq_toByteArray, ← String.utf8Encode_toList,
    List.utf8Encode, List.toList_data_toByteArray, flatMap_utf8EncodeChar h]

/-! ## Characters of result files -/

/-- A character of a number in a result file: ASCII, neither blank nor a comma. -/
def TokenChar (ch : Char) : Prop := ch.toNat < 128 ∧ isBlank ch = false ∧ ch ≠ ','

instance : DecidablePred TokenChar := fun _ => inferInstanceAs (Decidable (_ ∧ _ ∧ _))

/-- A character of a line of a result file: ASCII, and neither a line feed nor a carriage
return. -/
def LineChar (ch : Char) : Prop := ch.toNat < 128 ∧ ch ≠ '\n' ∧ ch ≠ '\r'

instance : DecidablePred LineChar := fun _ => inferInstanceAs (Decidable (_ ∧ _ ∧ _))

theorem tokenChar_of_isDigit {ch : Char} (h : ch.isDigit = true) : TokenChar ch := by
  have hb := Char.isDigit_iff_toNat.1 h
  have h₁ : 48 ≤ ch.toNat := hb.1
  have h₂ : ch.toNat ≤ 57 := hb.2
  refine ⟨by omega, ?_, ?_⟩
  · unfold isBlank
    simp only [Bool.or_eq_false_iff, Bool.and_eq_false_iff, decide_eq_false_iff_not, beq_eq_false_iff_ne]
    omega
  · rintro rfl
    exact absurd h₁ (by decide)

theorem TokenChar.lineChar {ch : Char} (h : TokenChar ch) : LineChar ch := by
  refine ⟨h.1, ?_, ?_⟩ <;> rintro rfl <;> exact absurd h.2.1 (by decide)

/-! ## Lines -/

/-- A line's bytes followed by a line feed end the line there. -/
theorem linesFrom_append_lineFeed {bs : List UInt8} (h : lineFeed ∉ bs) (rest cur : List UInt8) :
    linesFrom (bs ++ lineFeed :: rest) cur =
      (dropReturn (bs.reverse ++ cur)).reverse :: linesFrom rest [] := by
  induction bs generalizing cur with
  | nil => simp [linesFrom]
  | cons b bs ih =>
    have hb : (b == lineFeed) = false := by
      rw [beq_eq_false_iff_ne]
      rintro rfl
      exact h (.head _)
    rw [List.cons_append, linesFrom, hb, if_neg Bool.false_ne_true,
      ih (fun hm => h (.tail _ hm))]
    simp

theorem linesFrom_lines {ls : List (List Char)} (h : ∀ l ∈ ls, ∀ ch ∈ l, LineChar ch) :
    linesFrom ((ls.flatMap (· ++ ['\n'])).map Char.toUInt8) [] = ls.map (·.map Char.toUInt8) := by
  induction ls with
  | nil => rfl
  | cons l ls ih =>
    have hl : ∀ ch ∈ l, LineChar ch := h l (.head _)
    have hlf : lineFeed ∉ l.map Char.toUInt8 := by
      simp only [List.mem_map, not_exists, not_and]
      intro ch hch heq
      exact (hl ch hch).2.1 (eq_of_toUInt8_eq (hl ch hch).1 (by decide) (heq.trans rfl))
    -- the last byte of the line is no carriage return
    have hret : dropReturn (l.map Char.toUInt8).reverse = (l.map Char.toUInt8).reverse := by
      cases hrev : (l.map Char.toUInt8).reverse with
      | nil => rfl
      | cons b rest =>
        have hmem : b ∈ l.map Char.toUInt8 := List.mem_reverse.1 (hrev ▸ .head _)
        obtain ⟨ch, hch, rfl⟩ := List.mem_map.1 hmem
        have hne : (ch.toUInt8 == carriageReturn) = false := by
          rw [beq_eq_false_iff_ne]
          exact fun heq => (hl ch hch).2.2 (eq_of_toUInt8_eq (hl ch hch).1 (by decide) heq)
        simp [dropReturn, hne]
    rw [List.flatMap_cons, List.map_append, List.map_append, List.append_assoc, List.map_cons,
      List.map_nil, List.singleton_append]
    have hnl : Char.toUInt8 '\n' = lineFeed := rfl
    rw [hnl, linesFrom_append_lineFeed hlf, List.append_nil, hret, List.reverse_reverse,
      ih fun l' hl' => h l' (.tail _ hl'), List.map_cons]

/-- Lines of ASCII text, each ended by a line feed, read back as those lines. -/
theorem decodeLines_join {ls : List String} (h : ∀ l ∈ ls, ∀ ch ∈ l.toList, LineChar ch) :
    decodeLines (String.join (ls.map (· ++ "\n"))).toUTF8 = ls.map some := by
  have hchars : (String.join (ls.map (· ++ "\n"))).toList =
      (ls.map String.toList).flatMap (· ++ ['\n']) := by
    simp [String.toList_join, List.flatMap_map]
  have hlines : ∀ l ∈ ls.map String.toList, ∀ ch ∈ l, LineChar ch := by
    simpa using h
  have hascii : ∀ ch ∈ (String.join (ls.map (· ++ "\n"))).toList, ch.toNat < 128 := by
    rw [hchars]
    intro ch hch
    obtain ⟨l, hl, hch⟩ := List.mem_flatMap.1 hch
    rcases List.mem_append.1 hch with hch | hch
    · exact (hlines l hl ch hch).1
    · rw [List.mem_singleton.1 hch]
      decide
  unfold decodeLines byteLines
  rw [toList_toUTF8 hascii, hchars, linesFrom_lines hlines, List.map_map, List.map_map]
  refine List.map_congr_left fun l hl => ?_
  have hbytes : l.toList.map Char.toUInt8 = l.toUTF8.toList :=
    (toList_toUTF8 fun ch hch => (h l hl ch hch).1).symm
  simp only [Function.comp_apply, hbytes, mk_toArray_toList, fromUTF8?_toUTF8]

/-! ## Counts and words -/

/-- Digits read after `acc` give the number they write, when it stays within the limit: no
prefix passes it, as the number grows with every digit. -/
theorem readDigits_eq_ok {limit acc : ℕ} {e : IntError} {cs : List Char}
    (hd : ∀ c ∈ cs, c.isDigit) (hle : Nat.ofDigitChars 10 cs acc ≤ limit) :
    readDigits limit e acc cs = .ok (Nat.ofDigitChars 10 cs acc) := by
  induction cs generalizing acc with
  | nil => rfl
  | cons c cs ih =>
    rw [Nat.ofDigitChars_cons] at hle ⊢
    have hgrow := @Nat.ofDigitChars_eq_ofDigitChars_zero cs (10 * acc + (c.toNat - '0'.toNat))
    have hnext : 10 * acc + (c.toNat - '0'.toNat) ≤ limit := by
      have := Nat.le_mul_of_pos_left (10 * acc + (c.toNat - '0'.toNat)) (Nat.pow_pos (n := cs.length) (by decide : 0 < 10))
      omega
    rw [readDigits, if_pos (hd c (.head _)), if_neg (by omega)]
    exact ih (fun c' hc' => hd c' (.tail _ hc')) hle

/-- A number's decimal text reads back as the number, below the range's end. -/
theorem readUnsigned_toString {bits q : ℕ} (h : q ≤ Nat.pow 2 bits - 1) :
    readUnsigned bits (toString q) = .ok q := by
  have hdigits : ∀ c ∈ Nat.toDigits 10 q, c.isDigit := fun c hc =>
    Nat.isDigit_of_mem_toDigits (by decide) (by decide) hc
  have hread : readDigits (Nat.pow 2 bits - 1) .tooLarge 0 (Nat.toDigits 10 q) = .ok q := by
    rw [readDigits_eq_ok hdigits (by rwa [Nat.ofDigitChars_ten_toDigits]),
      Nat.ofDigitChars_ten_toDigits]
  obtain ⟨c, cs, hcs⟩ := List.exists_cons_of_ne_nil (Nat.toDigits_ne_nil (n := q) (b := 10))
  have hc : c.isDigit := hdigits c (hcs ▸ .head _)
  have hplus : c ≠ '+' := by rintro rfl; exact absurd hc (by decide)
  have hminus : c ≠ '-' := by rintro rfl; exact absurd hc (by decide)
  unfold readUnsigned
  rw [Nat.toString_eq_repr, Nat.toList_repr, hcs]
  rw [hcs] at hread
  -- the first character is a digit: neither empty nor a lone or leading sign
  split
  · rename_i heq
    exact absurd heq (List.cons_ne_nil _ _)
  · rename_i heq
    exact absurd (List.cons.inj heq).1 hplus
  · rename_i heq
    exact absurd (List.cons.inj heq).1 hminus
  · rename_i heq
    exact absurd (List.cons.inj heq).1 hplus
  · exact hread

/-- Characters that are no blanks join the word being read. -/
theorem wordsFrom_append {w : List Char} (hw : ∀ c ∈ w, isBlank c = false) (rest cur : List Char) :
    wordsFrom (w ++ rest) cur = wordsFrom rest (w.reverse ++ cur) := by
  induction w generalizing cur with
  | nil => rfl
  | cons c w ih =>
    rw [List.cons_append, wordsFrom, if_neg (by simp [hw c (.head _)]),
      ih (fun c' hc' => hw c' (.tail _ hc'))]
    simp

/-- A name and a value with a space between them are two words. -/
theorem words_pair {a b : String} (ha : a ≠ "") (hb : b ≠ "")
    (hna : ∀ c ∈ a.toList, isBlank c = false) (hnb : ∀ c ∈ b.toList, isBlank c = false) :
    words (a ++ " " ++ b) = [a, b] := by
  have hchars : (a ++ " " ++ b).toList = a.toList ++ ' ' :: (b.toList ++ []) := by simp
  unfold words wordsList
  rw [hchars, wordsFrom_append hna, wordsFrom, if_pos (by decide), if_neg (by simpa using ha),
    wordsFrom_append hnb, wordsFrom, if_neg (by simpa using hb)]
  simp

end ClusterSweep.Text

namespace ClusterSweep.Binary64

open ClusterSweep.Text

/-! ## Numerals -/

/-- A decimal without point or exponent reads as its digits. -/
theorem readDecimal_digits {a : List Char} (ha : a ≠ []) (hd : ∀ c ∈ a, c.isDigit) :
    readDecimal a = some (ofDecimal (digitsValue a) 0) := by
  have htake : a.takeWhile Char.isDigit = a := List.takeWhile_eq_self_iff.2 hd
  have hdrop : a.dropWhile Char.isDigit = [] := List.dropWhile_eq_nil_iff.2 hd
  simp [readDecimal, htake, hdrop, ha]

/-- A decimal with a point reads as its digits, scaled by the fraction's length. -/
theorem readDecimal_point {a f : List Char} (ha : a ≠ []) (hda : ∀ c ∈ a, c.isDigit)
    (hdf : ∀ c ∈ f, c.isDigit) :
    readDecimal (a ++ '.' :: f) = some (ofDecimal (digitsValue (a ++ f)) (0 - f.length)) := by
  have hpoint : Char.isDigit '.' = false := by decide
  have htake : (a ++ '.' :: f).takeWhile Char.isDigit = a := by
    rw [List.takeWhile_append_of_pos hda, List.takeWhile_cons_of_neg (by simp [hpoint]),
      List.append_nil]
  have hdrop : (a ++ '.' :: f).dropWhile Char.isDigit = '.' :: f := by
    rw [List.dropWhile_append_of_pos hda, List.dropWhile_cons_of_neg (by simp [hpoint])]
  have hftake : f.takeWhile Char.isDigit = f := List.takeWhile_eq_self_iff.2 hdf
  have hfdrop : f.dropWhile Char.isDigit = [] := List.dropWhile_eq_nil_iff.2 hdf
  simp [readDecimal, htake, hdrop, hftake, hfdrop, ha]

/-- The value of digits after digits: the first ones shifted past the second. -/
theorem digitsValue_append (a b : List Char) :
    digitsValue (a ++ b) = digitsValue a * 10 ^ b.length + digitsValue b := by
  show Nat.ofDigitChars 10 (a ++ b) 0 = Nat.ofDigitChars 10 a 0 * 10 ^ b.length + Nat.ofDigitChars 10 b 0
  rw [Nat.ofDigitChars_append, Nat.ofDigitChars_eq_ofDigitChars_zero, Nat.mul_comm]

@[simp]
theorem digitsValue_replicate_zero (n : ℕ) : digitsValue (List.replicate n '0') = 0 :=
  (Nat.ofDigitChars_replicate_zero).trans (Nat.mul_zero _)

@[simp]
theorem digitsValue_digitText (d : ℕ) : digitsValue (digitText d).toList = d := by
  rw [digitText, Nat.toString_eq_repr, Nat.toList_repr]
  exact Nat.ofDigitChars_ten_toDigits

/-- A positional text is digits worth `d · 10^s` for `s ≥ 0`, or digits, a point and `-s`
digits, worth `d` all together. -/
theorem positional_shape (d : ℕ) (s : ℤ) :
    ∃ a f : List Char, a ≠ [] ∧ (∀ c ∈ a, c.isDigit) ∧ (∀ c ∈ f, c.isDigit) ∧
      ((positional d s).toList = a ∧ digitsValue a = d * 10 ^ s.toNat ∧ 0 ≤ s ∨
        (positional d s).toList = a ++ '.' :: f ∧ digitsValue (a ++ f) = d ∧
          (f.length : ℤ) = -s) := by
  have hds : ∀ c ∈ (digitText d).toList, c.isDigit := fun c hc => by
    rw [digitText, Nat.toString_eq_repr, Nat.toList_repr] at hc
    exact Nat.isDigit_of_mem_toDigits (by decide) (by decide) hc
  have hne : (digitText d).toList ≠ [] := by simp [digitText]
  have hzeros : ∀ n, ∀ c ∈ List.replicate n '0', c.isDigit := fun n c hc => by
    rw [List.eq_of_mem_replicate hc]
    decide
  unfold positional
  dsimp only
  split_ifs with hs hcut
  · -- a whole number: its digits and zeros
    refine ⟨(digitText d).toList ++ List.replicate s.toNat '0', [], by simp [hne], ?_, by simp,
      .inl ⟨by simp, by simp [digitsValue_append], hs⟩⟩
    intro c hc
    rcases List.mem_append.1 hc with hc | hc
    · exact hds c hc
    · exact hzeros _ c hc
  · -- the point cuts the digits
    refine ⟨(digitText d).toList.take (↑(digitText d).length + s).toNat,
      (digitText d).toList.drop (↑(digitText d).length + s).toNat, ?_,
      fun c hc => hds c (List.mem_of_mem_take hc), fun c hc => hds c (List.mem_of_mem_drop hc),
      .inr ⟨by simp, by rw [List.take_append_drop, digitsValue_digitText], ?_⟩⟩
    · simp only [ne_eq, List.take_eq_nil_iff, not_or, hne, not_false_eq_true, and_true]
      omega
    · simp only [List.length_drop, String.length_toList]
      omega
  · -- below one: a zero, the point, zeros and the digits
    refine ⟨['0'], List.replicate (-(↑(digitText d).length + s)).toNat '0' ++ (digitText d).toList,
      by simp, by simp [show Char.isDigit '0' = true by decide], ?_,
      .inr ⟨by simp, ?_, ?_⟩⟩
    · intro c hc
      rcases List.mem_append.1 hc with hc | hc
      · exact hzeros _ c hc
      · exact hds c hc
    · rw [← List.append_assoc, digitsValue_append, List.singleton_append, ← List.replicate_succ,
        digitsValue_replicate_zero, digitsValue_digitText, Nat.zero_mul, Nat.zero_add]
    · simp only [List.length_append, List.length_replicate, String.length_toList]
      omega

/-- Reading a decimal never gives a NaN: its patterns go no further than that of `+∞`. -/
theorem word_ofDecimal_le (m : ℕ) (e : ℤ) : (ofDecimal m e).word ≤ 0x7FF0000000000000 := by
  unfold ofDecimal
  dsimp only
  split_ifs
  · decide
  · decide
  · decide
  · exact word_ofRatio_le _ _
  · exact word_ofRatio_le _ _

theorem toLower_of_isDigit {c : Char} (hc : c.isDigit = true) : c.toLower = c := by
  have h : c.toNat ≤ 57 := (Char.isDigit_iff_toNat.1 hc).2
  rw [Char.toLower, dif_neg]
  rintro ⟨hA, -⟩
  have : 65 ≤ c.toNat := UInt32.le_iff_toNat_le.1 hA
  omega

/-- A magnitude that starts with a digit is a decimal: a digit is its own lower case, and no
letter that starts a special word. -/
theorem readMagnitude_of_isDigit {c : Char} (cs : List Char) (hc : c.isDigit) :
    readMagnitude (c :: cs) = readDecimal (c :: cs) := by
  have hlower : c.toLower = c := toLower_of_isDigit hc
  have hi : c ≠ 'i' := by rintro rfl; exact absurd hc (by decide)
  have hn : c ≠ 'n' := by rintro rfl; exact absurd hc (by decide)
  simp [readMagnitude, hlower, hi, hn]

/-- A text that starts with a digit is read as a decimal. -/
theorem read?_of_isDigit {s : String} {c : Char} {cs : List Char} (h : s.toList = c :: cs)
    (hc : c.isDigit) : read? s = readDecimal (c :: cs) := by
  have hplus : c ≠ '+' := by rintro rfl; exact absurd hc (by decide)
  have hminus : c ≠ '-' := by rintro rfl; exact absurd hc (by decide)
  unfold read?
  rw [h]
  split
  · rename_i heq
    exact absurd (List.cons.inj heq).1 hplus
  · rename_i heq
    exact absurd (List.cons.inj heq).1 hminus
  · exact readMagnitude_of_isDigit cs hc

/-- A positional text reads as a decimal worth exactly `d · 10^s`. -/
theorem read?_positional (d : ℕ) (s : ℤ) :
    ∃ M E, read? (positional d s) = some (ofDecimal M E) ∧ (M : ℚ) * 10 ^ E = d * 10 ^ s := by
  obtain ⟨a, f, ha, hda, hdf, hshape⟩ := positional_shape d s
  obtain ⟨c, cs, hcs⟩ := List.exists_cons_of_ne_nil ha
  have hc : c.isDigit := hda c (hcs ▸ .head _)
  rcases hshape with ⟨h, hval, hs⟩ | ⟨h, hval, hlen⟩
  · refine ⟨digitsValue a, 0, ?_, ?_⟩
    · rw [read?_of_isDigit (h.trans hcs) hc, ← hcs, readDecimal_digits ha hda]
    · rw [hval, zpow_zero, mul_one, Nat.cast_mul, Nat.cast_pow, ← zpow_natCast,
        Int.toNat_of_nonneg hs, Nat.cast_ofNat]
  · refine ⟨digitsValue (a ++ f), 0 - f.length, ?_, ?_⟩
    · rw [read?_of_isDigit (h.trans (by rw [hcs, List.cons_append])) hc, ← List.cons_append, ← hcs,
        readDecimal_point ha hda hdf]
    · rw [hval, zero_sub, hlen, neg_neg]

theorem positional_tokenChar (d : ℕ) (s : ℤ) : ∀ ch ∈ (positional d s).toList, TokenChar ch := by
  obtain ⟨a, f, -, hda, hdf, hshape⟩ := positional_shape d s
  intro ch hch
  rcases hshape with ⟨h, -⟩ | ⟨h, -⟩ <;> rw [h] at hch
  · exact tokenChar_of_isDigit (hda ch hch)
  · rcases List.mem_append.1 hch with hch | hch
    · exact tokenChar_of_isDigit (hda ch hch)
    · rcases List.mem_cons.1 hch with rfl | hch
      · decide
      · exact tokenChar_of_isDigit (hdf ch hch)

theorem positional_ne_empty (d : ℕ) (s : ℤ) : positional d s ≠ "" := by
  obtain ⟨a, f, ha, -, -, hshape⟩ := positional_shape d s
  intro h
  rcases hshape with ⟨h', -⟩ | ⟨h', -⟩ <;> rw [h] at h' <;> simp at h'
  · exact ha h'

/-- A non-negative finite number is written positionally, without a sign. -/
theorem plainText_eq_positional {x : Binary64} (hx : x.word < 0x7FF0000000000000) :
    ∃ d s, plainText x = positional d s := by
  obtain ⟨m, k, hk⟩ := exists_classify_eq_finite hx
  unfold plainText decimal?
  rw [hk]
  by_cases hm : m = 0
  · exact ⟨0, 0, by simp [hm]⟩
  · exact ⟨(shortest m k).1, (shortest m k).2, by simp [hm]⟩

/-- A text that stands for a number on its own: not empty, of characters that are neither blank
nor commas, and read as a number that is no NaN. -/
def IsNumeral (s : String) : Prop :=
  s ≠ "" ∧ (∀ ch ∈ s.toList, TokenChar ch) ∧ ∃ y, read? s = some y ∧ y.isNaN = false

/-- The text of a number that is neither a NaN nor negative is a numeral. -/
theorem plainText_isNumeral {x : Binary64} (hx : x.word ≤ 0x7FF0000000000000) :
    IsNumeral (plainText x) := by
  rcases hx.lt_or_eq with hlt | heq
  · obtain ⟨d, s, hds⟩ := plainText_eq_positional hlt
    obtain ⟨M, E, hy, -⟩ := read?_positional d s
    rw [hds]
    exact ⟨positional_ne_empty d s, positional_tokenChar d s, ofDecimal M E, hy,
      isNaN_eq_false_of_word_le (word_ofDecimal_le M E)⟩
  · -- the pattern of `+∞`, written `inf`
    have hinf : x = inf := ext_word (heq.trans (by decide))
    subst hinf
    have htext : plainText inf = "inf" := by decide
    have hchars : "inf".toList = ['i', 'n', 'f'] := by simp
    rw [htext]
    refine ⟨by simp, fun ch hch => ?_, inf, by decide, by decide⟩
    simp only [hchars, List.mem_cons, List.not_mem_nil, or_false] at hch
    rcases hch with rfl | rfl | rfl <;> decide

/-! ## Dividing by one -/

/-- The exponent of a non-negative finite number's last significand bit is that of its value's
binade. -/
theorem unitExp_of_classify {x : Binary64} {m : ℕ} {k : ℤ} (hx : x.classify = .finite false m k)
    (hm : 0 < m) : UnitExp (m * 2 ^ k) k := by
  obtain ⟨hexp, -, hfields⟩ := classify_eq_finite hx
  have hfrac : x.fraction < Nat.pow 2 52 := Nat.mod_lt _ (Nat.two_pow_pos 52)
  have hpow : Nat.pow 2 52 = 4503599627370496 := rfl
  have hpow₂ : ∀ j : ℤ, (2 : ℚ) ^ (j + k) = 2 ^ j * 2 ^ k := fun j => zpow_add₀ two_ne_zero j k
  rcases hfields with ⟨-, rfl, rfl⟩ | ⟨hexp₀, rfl, rfl⟩
  · -- below the normal range: fewer than 52 bits at the least exponent
    refine ⟨le_rfl, ?_, .inl rfl⟩
    rw [hpow₂]
    have : ((x.fraction : ℕ) : ℚ) < 2 ^ (53 : ℤ) := by
      exact_mod_cast (by omega : x.fraction < 2 ^ 53)
    exact mul_lt_mul_of_pos_right this (zpow_pos two_pos _)
  · -- a normal number: 53 bits
    refine ⟨by omega, ?_, .inr ?_⟩
    · rw [hpow₂]
      have : (((x.fraction + Nat.pow 2 52 : ℕ)) : ℚ) < 2 ^ (53 : ℤ) := by
        exact_mod_cast (by omega : x.fraction + Nat.pow 2 52 < 2 ^ 53)
      exact mul_lt_mul_of_pos_right this (zpow_pos two_pos _)
    · rw [hpow₂]
      have : (2 : ℚ) ^ (52 : ℤ) ≤ ((x.fraction + Nat.pow 2 52 : ℕ) : ℚ) := by
        exact_mod_cast (by omega : 2 ^ 52 ≤ x.fraction + Nat.pow 2 52)
      exact mul_le_mul_of_nonneg_right this (zpow_nonneg (by norm_num) _)

/-- The pattern of a non-negative finite number `m · 2^k` is the one `encode` writes for `m` at
`k`, below that of `+∞`. -/
theorem word_of_classify {x : Binary64} {m : ℕ} {k : ℤ} (hx : x.classify = .finite false m k) :
    (k + 1074).toNat * Nat.pow 2 52 + m = x.word ∧ x.word < 0x7FF0000000000000 := by
  obtain ⟨hexp, hsign, hfields⟩ := classify_eq_finite hx
  have hword := word_eq_of_sign hsign.symm
  have hexp' : x.expField < Nat.pow 2 11 := Nat.mod_lt _ (Nat.two_pow_pos 11)
  have hfrac : x.fraction < Nat.pow 2 52 := Nat.mod_lt _ (Nat.two_pow_pos 52)
  have hpow : Nat.pow 2 52 = 4503599627370496 := rfl
  have hpow₁₁ : Nat.pow 2 11 = 2048 := rfl
  rw [hpow] at hword hfrac hfields ⊢
  rw [hpow₁₁] at hexp'
  rw [hword]
  rcases hfields with ⟨h0, rfl, rfl⟩ | ⟨h0, rfl, rfl⟩
  · simp only [h0]
    omega
  · have : ((x.expField : ℤ) - 1075 + 1074).toNat = x.expField - 1 := by omega
    rw [this]
    omega

/-- Rounding a ratio whose value a non-negative finite number has exactly gives that number. -/
theorem ofRatio_eq_of_value {x : Binary64} {m : ℕ} {k : ℤ} (hx : x.classify = .finite false m k)
    {N D : ℕ} (hD : 0 < D) (hval : (N / D : ℚ) = m * 2 ^ k) : ofRatio N D = x := by
  obtain ⟨hexp, hsign, hfields⟩ := classify_eq_finite hx
  have hword := word_eq_of_sign hsign.symm
  have hexp' : x.expField < 2047 := by
    have : x.expField < Nat.pow 2 11 := Nat.mod_lt _ (Nat.two_pow_pos 11)
    have hp : Nat.pow 2 11 = 2048 := rfl
    omega
  have hpow : Nat.pow 2 52 = 4503599627370496 := rfl
  rcases Nat.eq_zero_or_pos m with rfl | hm
  · -- the value zero: `+0` both ways
    have hN : N = 0 := by
      have : (N : ℚ) / D = 0 := by simpa using hval
      rcases div_eq_zero_iff.1 this with h | h
      · exact_mod_cast h
      · exact absurd h (by exact_mod_cast hD.ne')
    subst hN
    rw [ofRatio_zero_left]
    apply ext_word
    rcases hfields with ⟨h0, hf, -⟩ | ⟨-, hf, -⟩
    · rw [hword, h0, ← hf]
      rfl
    · omega
  · have hN : 0 < N := by
      have hpos : (0 : ℚ) < N / D := by rw [hval]; positivity
      by_contra h
      rw [Nat.eq_zero_of_not_pos h] at hpos
      simp at hpos
    obtain ⟨e, hu, heq⟩ := ofRatio_eq_encode hN hD
    -- the binade of the ratio is that of `x`
    have hk : UnitExp ((N : ℚ) / D) k := hval ▸ unitExp_of_classify hx hm
    have hek : e = k := le_antisymm (hu.le_of_le hk le_rfl) (hk.le_of_le hu le_rfl)
    subst hek
    -- at that exponent the ratio is the whole significand `m`
    have hround : roundAt N D e = m := by
      rcases hs : scaledDivMod N D e with ⟨q, r, d⟩
      obtain ⟨hd, hr, hqr⟩ := scaledDivMod_spec hD hs
      rw [hval, mul_div_assoc, div_self (zpow_ne_zero e two_ne_zero), mul_one] at hqr
      have hdq : (0 : ℚ) < d := by exact_mod_cast hd
      have hf₀ : (0 : ℚ) ≤ r / d := by positivity
      have hf₁ : (r : ℚ) / d < 1 := (div_lt_one hdq).2 (by exact_mod_cast hr)
      have hq : q = m := by
        have h₁ : (q : ℚ) ≤ m := by linarith
        have h₂ : (m : ℚ) < q + 1 := by linarith
        have h₁' : q ≤ m := by exact_mod_cast h₁
        have h₂' : m < q + 1 := by exact_mod_cast h₂
        omega
      have hr0 : r = 0 := by
        subst hq
        have : (r : ℚ) / d = 0 := by linarith
        rcases div_eq_zero_iff.1 this with h | h
        · exact_mod_cast h
        · exact absurd h hdq.ne'
      simp only [roundAt, hs, hq, hr0, roundHalfEven]
      simp
      omega
    rw [heq, hround]
    -- the pattern `encode` writes is that of `x`
    obtain ⟨hw, hlt⟩ := word_of_classify hx
    simp only [encode]
    rw [hw, if_pos hlt, ofWord_word]

/-- Dividing a non-negative finite number by one is exact. -/
theorem div_one_of_word_lt {x : Binary64} (hx : x.word < 0x7FF0000000000000) : div x one = x := by
  obtain ⟨m, k, hk⟩ := exists_classify_eq_finite hx
  have hone : one.classify = .finite false (Nat.pow 2 52) (-52) := by decide
  have hso : one.sign = false := by decide
  have hsx : x.sign = false := (classify_eq_finite hk).2.1.symm
  have hpow : Nat.pow 2 52 ≠ 0 := (Nat.two_pow_pos 52).ne'
  obtain ⟨N, D, hD, hval, heq⟩ :=
    ofScaled_eq_ofRatio m (k - -52) (show 0 < Nat.pow 2 52 from Nat.two_pow_pos 52)
  -- the quotient `m · 2^(k + 52) / 2^52` is the value of `x`
  have hND : (N / D : ℚ) = m * 2 ^ k := by
    rw [hval, natCast_two_pow, zpow_sub₀ two_ne_zero]
    field_simp
  simp only [div, hone, hk, hsx, hso, bne_self_eq_false, hpow, if_false, heq]
  rw [ofRatio_eq_of_value hk hD hND]
  exact withSign_false_of_word_lt (hx.trans (by decide))

/-- Dividing a number that is neither a NaN nor negative by one gives the number. -/
theorem div_one_eq_self {x : Binary64} (hx : x.word ≤ 0x7FF0000000000000) : div x one = x := by
  rcases hx.lt_or_eq with hlt | heq
  · exact div_one_of_word_lt hlt
  · have hinf : x = inf := ext_word (heq.trans (by decide))
    subst hinf
    decide

end ClusterSweep.Binary64

namespace ClusterSweep.Latency

open ClusterSweep.Text ClusterSweep.Binary64

/-! ## Latency files -/

/-- A text with no space starts no log line. -/
theorem isTimestampLine_eq_false {line : String} (h : ' ' ∉ line.toList) :
    isTimestampLine line = false := by
  unfold isTimestampLine
  dsimp only
  split
  · rename_i rest hrest
    have hsub : rest ⊆ line.toList := fun c hc =>
      (List.dropWhile_sublist _).subset (hrest ▸ List.mem_cons_of_mem _ hc)
    have hhead : (rest.dropWhile Char.isDigit).head? ≠ some ' ' := fun hh =>
      h (hsub ((List.dropWhile_sublist _).subset (List.mem_of_mem_head? hh)))
    simp [hhead]
  · rfl

/-- A number without blanks or commas is the one item of its line. -/
theorem items_token {tok : String} (hne : tok ≠ "") (h : ∀ ch ∈ tok.toList, TokenChar ch) :
    items tok = [tok] := by
  have hcomma : ',' ∉ tok.toList := fun hc => (h _ hc).2.2 rfl
  have hblank : ∀ l : List Char, (∀ c ∈ l, isBlank c = false) → l.dropWhile isBlank = l := by
    intro l hl
    cases l with
    | nil => rfl
    | cons c l => simp [hl c (.head _)]
  have htrim : trim tok = tok := by
    have hall : ∀ c ∈ tok.toList, isBlank c = false := fun c hc => (h c hc).2.1
    unfold trim trimList
    rw [hblank _ hall, hblank _ (fun c hc => hall c (List.mem_reverse.1 hc)), List.reverse_reverse,
      String.ofList_toList]
  unfold items
  rw [List.splitOn_eq_singleton hcomma]
  simp [htrim, hne]

/-- A line holding one token, which reads as a number other than NaN, holds that one sample. -/
theorem lineSamples_token {tok : String} {y : Binary64} (hne : tok ≠ "")
    (hchars : ∀ ch ∈ tok.toList, TokenChar ch) (hy : read? tok = some y) (hnan : y.isNaN = false)
    (path : String) (n : ℕ) : lineSamples path n tok = .ok [y] := by
  have hspace : ' ' ∉ tok.toList := fun hs => absurd (hchars ' ' hs).2.1 (by decide)
  rw [lineSamples, isTimestampLine_eq_false hspace, items_token hne hchars]
  simp [List.mapM_cons, hy, hnan]
  rfl

/-- A line holding one numeral holds its one sample. -/
theorem lineSamples_numeral {tok : String} (h : IsNumeral tok) (path : String) (n : ℕ) :
    ∃ y, lineSamples path n tok = .ok [y] := by
  obtain ⟨hne, hchars, y, hy, hnan⟩ := h
  exact ⟨y, lineSamples_token hne hchars hy hnan path n⟩

/-- Lines of one numeral each give one sample each. -/
theorem samplesFrom_numerals (path : String) :
    ∀ (toks : List String) (n : ℕ), (∀ tok ∈ toks, IsNumeral tok) →
      ∃ ys, samplesFrom path n (toks.map some) = .ok ys ∧ ys.length = toks.length
  | [], _, _ => ⟨[], rfl, rfl⟩
  | tok :: toks, n, h => by
    obtain ⟨y, hy⟩ := lineSamples_numeral (h tok (.head _)) path n
    obtain ⟨ys, hys, hlen⟩ := samplesFrom_numerals path toks (n + 1) fun t ht => h t (.tail _ ht)
    refine ⟨y :: ys, ?_, by simp [hlen]⟩
    simp only [List.map_cons, samplesFrom, hy, hys]
    rfl

/-- The latency file of a simulated client holds one sample per request. -/
theorem parseSamples_latencyText (path : String) (index requests : ℕ) :
    ∃ ys, parseSamples path (Simulation.latencyText index requests).toUTF8 = .ok ys ∧
      ys.length = requests := by
  let toks := (List.range requests).map fun k => plainText (ofNat (k + 1 + index))
  have hnum : ∀ tok ∈ toks, IsNumeral tok := by
    intro tok htok
    obtain ⟨k, -, rfl⟩ := List.mem_map.1 htok
    exact plainText_isNumeral (word_ofRatio_le _ _)
  have htext : Simulation.latencyText index requests = String.join (toks.map (· ++ "\n")) := by
    simp [Simulation.latencyText, Simulation.samplesText, toks, List.map_map, Function.comp_def]
  obtain ⟨ys, hys, hlen⟩ := samplesFrom_numerals path toks 1 hnum
  refine ⟨ys, ?_, by simpa [toks] using hlen⟩
  rw [parseSamples, htext, decodeLines_join fun tok htok ch hch => ((hnum tok htok).2.1 ch hch).lineChar]
  exact hys

end ClusterSweep.Latency

namespace ClusterSweep.Throughput

open ClusterSweep.Text ClusterSweep.Binary64

/-! ## Execution summaries -/

/-- The execution summary of a simulated client reads back as one second and its operations,
when they fit a 64-bit count. -/
theorem parse_summaryText (path : String) {ops : ℕ} (hops : ops ≤ u64Max) :
    Summary.parse path (Simulation.summaryText one ops).toUTF8 = .ok ⟨one, ops⟩ := by
  have hone : fixedText 2 one = "1.00" := by decide
  have htext : Simulation.summaryText one ops =
      String.join (["totalTime 1.00", "totalOps " ++ toString ops].map (· ++ "\n")) := by
    rw [Simulation.summaryText, hone, ← String.toList_inj]
    simp
  have hdigits : ∀ ch ∈ (toString ops).toList, TokenChar ch := fun ch hch => by
    have hmem : ch ∈ Nat.toDigits 10 ops := by simpa using hch
    exact tokenChar_of_isDigit (Nat.isDigit_of_mem_toDigits (by decide) (by decide) hmem)
  have hname : ∀ ch ∈ "totalOps".toList, TokenChar ch := by
    have : "totalOps".toList = ['t', 'o', 't', 'a', 'l', 'O', 'p', 's'] := by simp
    rw [this]
    simp only [List.forall_mem_cons, List.not_mem_nil, IsEmpty.forall_iff, implies_true, and_true]
    decide
  have hlines : ∀ l ∈ ["totalTime 1.00", "totalOps " ++ toString ops], ∀ ch ∈ l.toList,
      LineChar ch := by
    have h₁ : "totalTime 1.00".toList =
        ['t', 'o', 't', 'a', 'l', 'T', 'i', 'm', 'e', ' ', '1', '.', '0', '0'] := by simp
    have h₂ : ("totalOps " ++ toString ops).toList = "totalOps".toList ++ ' ' :: (toString ops).toList := by
      simp
    simp only [List.mem_cons, List.not_mem_nil, or_false]
    rintro l (rfl | rfl) ch hch
    · rw [h₁] at hch
      revert ch hch
      simp only [List.forall_mem_cons, List.not_mem_nil, IsEmpty.forall_iff, implies_true, and_true]
      decide
    · rw [h₂, List.mem_append, List.mem_cons] at hch
      rcases hch with hch | rfl | hch
      · exact (hname ch hch).lineChar
      · decide
      · exact (hdigits ch hch).lineChar
  have hwords₁ : words "totalTime 1.00" = ["totalTime", "1.00"] := by decide +kernel
  have hwords₂ : words ("totalOps " ++ toString ops) = ["totalOps", toString ops] := by
    have hsplit : "totalOps " ++ toString ops = "totalOps" ++ " " ++ toString ops := by
      rw [← String.toList_inj]
      simp
    rw [hsplit]
    exact words_pair (by simp) (by simp) (fun c hc => (hname c hc).2.1)
      (fun c hc => (hdigits c hc).2.1)
  have hread : read? "1.00" = some one := by decide +kernel
  have hcount : readUnsigned 64 (toString ops) = .ok ops := readUnsigned_toString hops
  rw [htext, Summary.parse, decodeLines_join hlines]
  simp only [Nat.toString_eq_repr] at hwords₂ hcount
  simp [readFrom, readLine, hwords₁, hwords₂, hread, hcount]
  rfl

/-- Summing the operations of equal summaries in a word. -/
theorem foldlM_checkedAdd_replicate (bound : ℕ) {ops : ℕ} (s : Summary) (hs : s.totalOps = ops) :
    ∀ (n a : ℕ), a + n * ops ≤ bound →
      (List.replicate n s).foldlM (fun acc s => checkedAdd bound acc s.totalOps) a = .ok (a + n * ops)
  | 0, a, _ => by
    simp only [List.replicate_zero, List.foldlM_nil, zero_mul, add_zero]
    rfl
  | n + 1, a, h => by
    have hstep : checkedAdd bound a s.totalOps = .ok (a + ops) :=
      checkedAdd_ok_iff.2 ⟨by rw [hs]; nlinarith, by rw [hs]⟩
    rw [List.replicate_succ, List.foldlM_cons, hstep]
    show (List.replicate n s).foldlM _ (a + ops) = _
    rw [foldlM_checkedAdd_replicate bound s hs n (a + ops) (by nlinarith)]
    congr 1
    ring

/-- The longest of runs of one second each is one second. -/
theorem foldl_max_replicate (ops : ℕ) :
    ∀ n, 0 < n → (List.replicate n (⟨one, ops⟩ : Summary)).foldl
      (fun acc s => Binary64.max acc s.totalTime) zero = one := by
  have hone : ∀ n, (List.replicate n (⟨one, ops⟩ : Summary)).foldl
      (fun acc s => Binary64.max acc s.totalTime) one = one := by
    intro n
    induction n with
    | zero => rfl
    | succ n ih =>
      rw [List.replicate_succ, List.foldl_cons]
      have : Binary64.max one one = one := by decide
      simpa [this] using ih
  intro n hn
  obtain ⟨n, rfl⟩ := Nat.exists_eq_add_of_lt hn
  have : Binary64.max zero one = one := by decide
  simpa [List.replicate_succ, this] using hone n

/-- Clients that each ran one second and `ops` operations run at their total operations per
second, when that total fits a word. -/
theorem aggregate_replicate {n ops : ℕ} (hn : 0 < n) (hsum : n * ops ≤ u64Max) :
    aggregate (List.replicate n ⟨one, ops⟩) = .ok (.ok (ofNat (n * ops))) := by
  have hsums := foldlM_checkedAdd_replicate u64Max ⟨one, ops⟩ rfl n 0 (by simpa using hsum)
  have hle : le one zero = false := by decide
  simp only [aggregate, hsums, foldl_max_replicate ops n hn, hle, zero_add]
  simp only [bind, Except.bind, Bool.false_eq_true, if_false]
  rw [div_one_eq_self (x := ofNat (n * ops)) (word_ofRatio_le (n * ops) 1)]
  rfl

end ClusterSweep.Throughput
