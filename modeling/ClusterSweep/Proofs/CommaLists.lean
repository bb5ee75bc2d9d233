import Mathlib
import ClusterSweep.CommandLine.Arguments
import ClusterSweep.Proofs.ClientFiles
import ClusterSweep.Proofs.ReduceIdempotent
import ClusterSweep.Proofs.SampleGrammar

/-!
# Comma-separated options

A list option is cut at its commas, each piece is trimmed of its blanks, the empty pieces are
dropped, and the items left are read one after the other (`CommandLine.listOf`).

* Cutting a text at a one-character separator gives the pieces between the separators
  (`Text.splitOn_singleton`), so the items of an option are its trimmed non-empty pieces
  (`CommandLine.listItems`, `CommandLine.listOf_eq`).
* Reading succeeds exactly when every item reads, each to its own value
  (`listOf_eq_ok_iff`); otherwise the first item that does not read is reported, quoted, with its
  reason (`listOf_eq_error_iff`).
* Writing values comma-separated reads them back, whatever blanks stand around the items and
  however many empty pieces stand among them, as long as each item's text is `Bare`: not empty,
  without commas and without blanks at either end (`listOf_pieces`).  Decimal numbers are always
  bare, so lists of 32-bit, 64-bit and non-zero 32-bit numbers read back; a list of texts reads
  back exactly when every text in it is bare (`listOf_intercalate_eq_ok_iff`).
-/

namespace ClusterSweep

namespace Text

open String

/-- One step of cutting a text at a one-character separator: the text is `l ++ m ++ r`, the
piece begun after `l` holds `m` so far, and `acc` holds the pieces before it, reversed. -/
theorem splitOnAux_singleton (c : Char) (r : List Char) :
    ∀ (l m : List Char) (acc : List String),
    String.splitOnAux (ofList (l ++ m ++ r)) (String.singleton c) ⟨utf8Len l⟩
        ⟨utf8Len l + utf8Len m⟩ 0 acc =
      acc.reverse ++ (List.splitOnPPrepend (· == c) r m.reverse).map ofList := by
  -- the separator is one character: the position in it stays at its start, and a match of
  -- that character ends a piece at once
  have hsep : (0 : Pos.Raw).get (String.singleton c) = c := by
    simpa using get_of_valid [] [c]
  have hsepNext : (0 : Pos.Raw).next (String.singleton c) = ⟨c.utf8Size⟩ := by
    simpa using next_of_valid [] c []
  have hsepEnd : (String.singleton c).rawEndPos = ⟨c.utf8Size⟩ := by
    simpa using rawEndPos_ofList [c]
  induction r with
  | nil =>
    intro l m acc
    rw [String.splitOnAux]
    simp only [List.append_nil, atEnd_iff, rawEndPos_ofList, utf8Len_append, Pos.Raw.mk_le_mk,
      le_refl, if_true]
    simpa using extract_of_valid l m []
  | cons d r ih =>
    intro l m acc
    rw [String.splitOnAux]
    have hget := get_of_valid (l ++ m) (d :: r)
    have hnext := next_of_valid (l ++ m) d r
    simp only [List.append_assoc, atEnd_iff, rawEndPos_ofList, utf8Len_append, utf8Len_cons,
      Pos.Raw.mk_le_mk] at hget hnext ⊢
    rw [if_neg (by have := Char.utf8Size_pos d; omega), hget, hnext, hsep, hsepNext, hsepEnd]
    by_cases hd : d = c
    · -- the separator: the piece `m` is finished and a new one starts after it
      subst hd
      have hpiece : Pos.Raw.extract (ofList (l ++ (m ++ d :: r))) ⟨utf8Len l⟩
          (Pos.Raw.unoffsetBy ⟨utf8Len l + utf8Len m + d.utf8Size⟩ ⟨d.utf8Size⟩) = ofList m := by
        have h := extract_of_valid l m (d :: r)
        simp only [List.append_assoc] at h
        simpa [Pos.Raw.unoffsetBy] using h
      simp only [List.headD_cons, beq_self_eq_true, if_true, hpiece]
      have := ih (l ++ m ++ [d]) [] (ofList m :: acc)
      simp only [List.append_assoc, List.cons_append, List.nil_append, utf8Len_append,
        utf8Len_cons, utf8Len_nil, Nat.add_zero, List.reverse_nil, List.reverse_cons] at this
      rw [List.splitOnPPrepend_cons_pos (by simp)]
      simpa [Nat.add_assoc] using this
    · -- any other character joins the piece
      have hne : (d == c) = false := by simpa using hd
      have hstay : Pos.Raw.unoffsetBy ⟨utf8Len l + utf8Len m⟩ 0 = ⟨utf8Len l + utf8Len m⟩ := by
        simp [Pos.Raw.unoffsetBy]
      simp only [List.headD_cons, hne, Bool.false_eq_true, if_false, hstay, hnext]
      have := ih l (m ++ [d]) acc
      simp only [List.append_assoc, List.cons_append, List.nil_append, utf8Len_append,
        utf8Len_cons, utf8Len_nil, List.reverse_append, List.reverse_cons,
        List.reverse_nil] at this
      rw [List.splitOnPPrepend_cons_neg (p := fun x => x == c) hne]
      simpa [Nat.add_assoc] using this

/-- Cutting a text at a one-character separator gives the pieces between the separators. -/
theorem splitOn_singleton (s : String) (c : Char) :
    s.splitOn (String.singleton c) = (s.toList.splitOn c).map ofList := by
  have h := splitOnAux_singleton c s.toList [] [] []
  simp only [List.nil_append, utf8Len_nil, ofList_toList, Nat.add_zero, List.reverse_nil] at h
  rw [String.splitOn, if_neg (by simp), List.splitOn_eq_splitOnP]
  simpa using h

/-- Blanks in front of a text are dropped up to its first other character. -/
theorem dropWhile_blank_append {front rest : List Char} (hf : ∀ c ∈ front, isBlank c = true) :
    (front ++ rest).dropWhile isBlank = rest.dropWhile isBlank :=
  List.dropWhile_append_of_pos hf

/-- A text that does not start with a blank loses nothing to the blanks' drop. -/
theorem dropWhile_blank_of_head {cs : List Char} (h : ∀ c ∈ cs.head?, isBlank c = false) :
    cs.dropWhile isBlank = cs := by
  cases cs with
  | nil => rfl
  | cons c cs => exact List.dropWhile_cons_of_neg (by simp [h c rfl])

/-- Trimming drops the blanks put around a text that neither starts nor ends with a blank. -/
theorem trimList_pad {front x back : List Char} (hf : ∀ c ∈ front, isBlank c = true)
    (hb : ∀ c ∈ back, isBlank c = true) (hhead : ∀ c ∈ x.head?, isBlank c = false)
    (hlast : ∀ c ∈ x.getLast?, isBlank c = false) :
    trimList (front ++ x ++ back) = x := by
  unfold trimList
  rw [List.append_assoc, dropWhile_blank_append hf]
  cases x with
  | nil =>
    rw [List.nil_append, List.dropWhile_eq_nil_iff.2 hb]
    rfl
  | cons c x =>
    have hc : isBlank c = false := hhead c rfl
    have hrev : ∀ c' ∈ back.reverse, isBlank c' = true := fun c' h => hb c' (List.mem_reverse.1 h)
    rw [List.cons_append, List.dropWhile_cons_of_neg (by simp [hc]), ← List.cons_append,
      List.reverse_append, dropWhile_blank_append hrev,
      dropWhile_blank_of_head (by rwa [List.head?_reverse]), List.reverse_reverse]

/-- No piece between separators holds a separator. -/
theorem not_mem_of_mem_splitOn {c : Char} :
    ∀ {cs piece : List Char}, piece ∈ cs.splitOn c → c ∉ piece
  | [], piece, h => by
    rw [List.splitOn_nil, List.mem_singleton] at h
    simp [h]
  | d :: cs, piece, h => by
    rw [List.splitOn_cons_eq_if_modifyHead] at h
    split at h
    · -- a separator ends the first piece empty
      rcases List.mem_cons.1 h with rfl | h
      · simp
      · exact not_mem_of_mem_splitOn h
    · -- any other character starts the first piece
      rename_i hd
      obtain ⟨first, rest, hsplit⟩ := List.exists_cons_of_ne_nil (List.splitOn_ne_nil c cs)
      rw [hsplit, List.modifyHead_cons] at h
      rcases List.mem_cons.1 h with rfl | h
      · rintro (_ | ⟨_, hc⟩)
        · simp at hd
        · exact not_mem_of_mem_splitOn (hsplit ▸ List.mem_cons_self ..) hc
      · exact not_mem_of_mem_splitOn (hsplit ▸ List.mem_cons_of_mem _ h)

/-- A trimmed text is part of the text: it holds no character the text does not. -/
theorem mem_of_mem_trimList {cs : List Char} {c : Char} (h : c ∈ trimList cs) : c ∈ cs := by
  obtain ⟨front, back, hcs, -⟩ := trimList_spec cs
  rw [hcs]
  exact List.mem_append_left _ (List.mem_append_right _ h)

end Text

namespace CommandLine

open Text

/-! ## The items of a list option -/

/-- The items of a comma-separated text: the pieces between its commas, trimmed of blanks,
without the empty ones. -/
def listItems (s : String) : List String :=
  ((s.toList.splitOn ',').map fun piece => trim (String.ofList piece)).filter (!·.isEmpty)

/-- A list option reads its items in order, a failure naming the item. -/
theorem listOf_eq {β : Type} (item : String → Except String β) (s : String) :
    listOf item s = (listItems s).mapM fun x =>
      (item x).mapError fun e => "invalid list item " ++ quoted x ++ ": " ++ e := by
  have hcomma : ("," : String) = String.singleton ',' := by decide
  rw [listOf, listItems, hcomma, splitOn_singleton, List.map_map]
  rfl

theorem mapError_eq_ok_iff {ε ε' β : Type} {f : ε → ε'} {r : Except ε β} {b : β} :
    r.mapError f = .ok b ↔ r = .ok b := by
  cases r <;> simp [Except.mapError]

theorem mapError_eq_error_iff {ε ε' β : Type} {f : ε → ε'} {r : Except ε β} {e : ε'} :
    r.mapError f = .error e ↔ ∃ e₀, r = .error e₀ ∧ e = f e₀ := by
  cases r <;> simp [Except.mapError, eq_comm]

/-- A list option reads exactly when every item reads, each to its own value. -/
theorem listOf_eq_ok_iff {β : Type} {item : String → Except String β} {s : String}
    {ys : List β} :
    listOf item s = .ok ys ↔ List.Forall₂ (fun x y => item x = .ok y) (listItems s) ys := by
  rw [listOf_eq, mapM_eq_ok_iff]
  simp only [mapError_eq_ok_iff]

/-- A list option fails at its first item that does not read, quoting the item and giving the
reason. -/
theorem listOf_eq_error_iff {β : Type} {item : String → Except String β} {s : String}
    {e : String} :
    listOf item s = .error e ↔ ∃ pre x post err, listItems s = pre ++ x :: post ∧
      (∀ p ∈ pre, ∃ y, item p = .ok y) ∧ item x = .error err ∧
      e = "invalid list item " ++ quoted x ++ ": " ++ err := by
  rw [listOf_eq, mapM_eq_error_iff, FirstFailure]
  simp only [mapError_eq_ok_iff, mapError_eq_error_iff]
  constructor
  · rintro ⟨pre, x, post, hsplit, hpre, err, hx, rfl⟩
    exact ⟨pre, x, post, err, hsplit, hpre, hx, rfl⟩
  · rintro ⟨pre, x, post, err, hsplit, hpre, hx, rfl⟩
    exact ⟨pre, x, post, hsplit, hpre, err, hx, rfl⟩

/-! ## Items that read back -/

/-- An item that a comma-separated list carries unchanged: not empty, without commas, and
neither starting nor ending with a blank. -/
def Bare (s : String) : Prop :=
  s ≠ "" ∧ ',' ∉ s.toList ∧ (∀ c ∈ s.toList.head?, isBlank c = false) ∧
    ∀ c ∈ s.toList.getLast?, isBlank c = false

instance : DecidablePred Bare := fun _ => inferInstanceAs (Decidable (_ ∧ _))

/-- Every item of a list option is bare. -/
theorem bare_of_mem_listItems {s x : String} (h : x ∈ listItems s) : Bare x := by
  obtain ⟨hpiece, hne⟩ := List.mem_filter.1 h
  obtain ⟨piece, hmem, rfl⟩ := List.mem_map.1 hpiece
  obtain ⟨-, -, -, -, -, hhead, hlast⟩ := trimList_spec piece
  -- no piece between commas holds a comma, and trimming keeps part of a piece
  have hcomma : ',' ∉ piece := not_mem_of_mem_splitOn hmem
  refine ⟨by simpa using hne, fun hc => hcomma (mem_of_mem_trimList ?_), ?_, ?_⟩
  · simpa [trim] using hc
  · simpa [trim] using hhead
  · simpa [trim] using hlast

/-- A piece of a comma-separated text: blanks, an item or nothing, blanks. -/
structure Piece (β : Type) where
  /-- The characters before the item. -/
  lead : List Char
  /-- The item, if the piece holds one. -/
  item : Option β
  /-- The characters after the item. -/
  trail : List Char

namespace Piece

variable {β : Type}

/-- The text of a piece, its item written by `render`. -/
def text (render : β → String) (p : Piece β) : String :=
  String.ofList (p.lead ++ (p.item.elim [] fun x => (render x).toList) ++ p.trail)

/-- The characters around the item are blanks. -/
def Padded (p : Piece β) : Prop :=
  (∀ c ∈ p.lead, isBlank c = true) ∧ ∀ c ∈ p.trail, isBlank c = true

instance : DecidablePred (Padded (β := β)) := fun _ => inferInstanceAs (Decidable (_ ∧ _))

/-- A padded piece holds no comma, as long as its item does not. -/
theorem comma_not_mem_text {render : β → String} {p : Piece β} (hp : p.Padded)
    (hbare : ∀ x ∈ p.item, Bare (render x)) : ',' ∉ (p.text render).toList := by
  have hblank : isBlank ',' = false := by decide
  intro hc
  simp only [text, String.toList_ofList, List.mem_append] at hc
  rcases hc with (hc | hc) | hc
  · exact absurd (hp.1 _ hc) (by simp [hblank])
  · cases hx : p.item with
    | none => simp [hx] at hc
    | some x =>
      simp only [hx, Option.elim_some] at hc
      exact (hbare x hx).2.1 hc
  · exact absurd (hp.2 _ hc) (by simp [hblank])

/-- Trimming a padded piece leaves its item's text, or nothing. -/
theorem trim_text {render : β → String} {p : Piece β} (hp : p.Padded)
    (hbare : ∀ x ∈ p.item, Bare (render x)) :
    trim (p.text render) = p.item.elim "" render := by
  unfold text trim
  rw [String.toList_ofList]
  cases hx : p.item with
  | none =>
    simp only [Option.elim_none]
    rw [trimList_pad hp.1 hp.2 (by simp) (by simp)]
  | some x =>
    obtain ⟨-, -, hhead, hlast⟩ := hbare x hx
    simp only [Option.elim_some]
    rw [trimList_pad hp.1 hp.2 hhead hlast, String.ofList_toList]

end Piece

/-- Trimming padded pieces and dropping the empty ones leaves the items they hold. -/
theorem filter_trim_pieces {β : Type} {render : β → String} :
    ∀ {ps : List (Piece β)}, (∀ p ∈ ps, p.Padded) → (∀ p ∈ ps, ∀ x ∈ p.item, Bare (render x)) →
      (ps.map fun p => trim (p.text render)).filter (!·.isEmpty) =
        ps.filterMap fun p => p.item.map render
  | [], _, _ => rfl
  | p :: ps, hp, hbare => by
    have ih := filter_trim_pieces (fun q hq => hp q (.tail _ hq)) (fun q hq => hbare q (.tail _ hq))
    rw [List.map_cons, List.filter_cons, Piece.trim_text (hp p (.head _)) (hbare p (.head _)),
      List.filterMap_cons, ih]
    cases hx : p.item with
    | none => rfl
    | some x =>
      have hne : (render x).isEmpty = false := by
        simpa using (hbare p (.head _) x hx).1
      simp [hne]

/-- The items of padded pieces joined by commas are the items the pieces hold, in order. -/
theorem listItems_pieces {β : Type} {render : β → String} {ps : List (Piece β)}
    (hp : ∀ p ∈ ps, p.Padded) (hbare : ∀ p ∈ ps, ∀ x ∈ p.item, Bare (render x)) :
    listItems (",".intercalate (ps.map (Piece.text render))) =
      ps.filterMap fun p => p.item.map render := by
  unfold listItems
  cases ps with
  | nil => rfl
  | cons q qs =>
    -- cutting the joined text at its commas gives the pieces back
    have hsplit : (",".intercalate ((q :: qs).map (Piece.text render))).toList.splitOn ',' =
        (q :: qs).map fun p => (p.text render).toList := by
      rw [String.toList_intercalate, List.map_map]
      exact List.splitOn_intercalate ',' (by
        simp only [List.mem_map, Function.comp_apply]
        rintro _ ⟨p, hmem, rfl⟩
        exact Piece.comma_not_mem_text (hp p hmem) (hbare p hmem)) (by simp)
    rw [hsplit, List.map_map]
    simp only [Function.comp_def, String.ofList_toList]
    exact filter_trim_pieces hp hbare

/-- Padded pieces joined by commas read back as the values of their items, when every item's
text is bare and reads as its value. -/
theorem listOf_pieces {β γ : Type} {item : String → Except String γ} {render : β → String}
    {value : β → γ} {ps : List (Piece β)} (hp : ∀ p ∈ ps, p.Padded)
    (hbare : ∀ p ∈ ps, ∀ x ∈ p.item, Bare (render x))
    (hread : ∀ p ∈ ps, ∀ x ∈ p.item, item (render x) = .ok (value x)) :
    listOf item (",".intercalate (ps.map (Piece.text render))) =
      .ok (ps.filterMap fun p => p.item.map value) := by
  rw [listOf_eq_ok_iff, listItems_pieces hp hbare]
  clear hp hbare
  -- each item the pieces hold reads as its value
  induction ps with
  | nil => exact .nil
  | cons p ps ih =>
    have ih := ih fun q hq => hread q (.tail _ hq)
    cases hx : p.item with
    | none => simpa [hx] using ih
    | some x =>
      simp only [List.filterMap_cons, hx, Option.map_some]
      exact .cons (hread p (.head _) x hx) ih

/-! ## Numbers and texts -/

/-- A digit is no blank. -/
theorem isBlank_of_isDigit {c : Char} (h : c.isDigit = true) : isBlank c = false := by
  simp only [Char.isDigit, Bool.and_eq_true, decide_eq_true_eq, UInt32.le_iff_toNat_le] at h
  have hc : 48 ≤ c.toNat ∧ c.toNat ≤ 57 := h
  unfold isBlank
  simp only [Bool.or_eq_false_iff, Bool.and_eq_false_iff, decide_eq_false_iff_not,
    beq_eq_false_iff_ne]
  omega

/-- A number's decimal text is bare: digits only, at least one. -/
theorem bare_toString (n : ℕ) : Bare (toString n) := by
  have hdigit : ∀ c ∈ (toString n).toList, isBlank c = false := fun c hc =>
    isBlank_of_isDigit (isDigit_of_mem_toString hc)
  refine ⟨?_, fun hc => absurd (isDigit_of_mem_toString hc) (by decide), ?_, ?_⟩
  · rw [Ne, ← String.toList_inj, Nat.toString_eq_repr, Nat.toList_repr]
    exact Nat.toDigits_ne_nil
  · exact fun c hc => hdigit c (List.mem_of_mem_head? hc)
  · exact fun c hc => hdigit c (List.mem_of_getLast? hc)

/-- A number within `bits` bits reads back from its decimal text. -/
theorem unsigned_toString {bits n : ℕ} (h : n ≤ Nat.pow 2 bits - 1) :
    unsigned bits (toString n) = .ok n := by
  rw [unsigned, readUnsigned_toString h]
  rfl

theorem u32_toNat_le (x : UInt32) : x.toNat ≤ Nat.pow 2 32 - 1 := by
  have := x.toNat_lt_size
  simp only [UInt32.size] at this
  simp only [Nat.pow_eq]
  omega

theorem u64_toNat_le (x : UInt64) : x.toNat ≤ Nat.pow 2 64 - 1 := by
  have := x.toNat_lt_size
  simp only [UInt64.size] at this
  simp only [Nat.pow_eq]
  omega

/-- A non-zero 32-bit number reads back from its decimal text as a client count. -/
theorem clientCount_toString {x : UInt32} (hx : x ≠ 0) :
    clientCount (toString x.toNat) = .ok x.toNat := by
  have hpos : x.toNat ≠ 0 := by
    intro h0
    exact hx (UInt32.toNat_inj.1 (by simpa using h0))
  rw [clientCount, unsigned_toString (u32_toNat_le x)]
  exact if_neg hpos

/-- A list of texts joined by commas reads back exactly when every text in it is bare. -/
theorem listOf_intercalate_eq_ok_iff (xs : List String) :
    listOf pure (",".intercalate xs) = .ok xs ↔ ∀ x ∈ xs, Bare x := by
  constructor
  · intro h x hx
    -- reading a text changes nothing, so the items are the texts themselves
    have hall := (listOf_eq_ok_iff.1 h).imp
      fun a b (hab : (pure a : Except String String) = .ok b) => Except.ok.inj hab
    rw [List.forall₂_eq_eq_eq] at hall
    exact bare_of_mem_listItems (hall ▸ hx)
  · intro hbare
    -- each text is a piece of its own, with no blanks around it
    let ps : List (Piece String) := xs.map fun x => ⟨[], some x, []⟩
    have htexts : ps.map (Piece.text id) = xs := by
      simp [ps, Piece.text, Function.comp_def]
    have h := @listOf_pieces String String pure id id ps
      (by simp [ps, Piece.Padded]) (by simpa [ps] using hbare) fun _ _ _ _ => rfl
    rw [htexts] at h
    simpa [ps, List.filterMap_map, Function.comp_def] using h

/-- Comma-separated lists read back.  Lists of 32-bit, 64-bit and non-zero 32-bit numbers
written in decimal and joined by commas read back as the numbers, whatever blanks surround the
items and however many empty items stand among them; so do lists of bare texts, and a list of
texts joined by commas reads back exactly when every text in it is bare.  For every text,
reading a list succeeds exactly when each of its trimmed non-empty items reads, and otherwise
fails at the first item that does not, quoting it. -/
theorem listOf_round_trip :
    (∀ ps : List (Piece UInt32), (∀ p ∈ ps, p.Padded) →
      listOf (unsigned 32) (",".intercalate (ps.map (Piece.text toString))) =
        .ok (ps.filterMap fun p => p.item.map UInt32.toNat)) ∧
    (∀ ps : List (Piece UInt64), (∀ p ∈ ps, p.Padded) →
      listOf (unsigned 64) (",".intercalate (ps.map (Piece.text toString))) =
        .ok (ps.filterMap fun p => p.item.map UInt64.toNat)) ∧
    (∀ ps : List (Piece {x : UInt32 // x ≠ 0}), (∀ p ∈ ps, p.Padded) →
      listOf clientCount (",".intercalate (ps.map (Piece.text fun x => toString x.val))) =
        .ok (ps.filterMap fun p => p.item.map fun x => x.val.toNat)) ∧
    (∀ ps : List (Piece String), (∀ p ∈ ps, p.Padded) → (∀ p ∈ ps, ∀ x ∈ p.item, Bare x) →
      listOf pure (",".intercalate (ps.map (Piece.text id))) = .ok (ps.filterMap (·.item))) ∧
    (∀ xs : List String, listOf pure (",".intercalate xs) = .ok xs ↔ ∀ x ∈ xs, Bare x) ∧
    (∀ {β : Type} (item : String → Except String β) (s : String) (ys : List β),
      listOf item s = .ok ys ↔ List.Forall₂ (fun x y => item x = .ok y) (listItems s) ys) ∧
    (∀ {β : Type} (item : String → Except String β) (s e : String),
      listOf item s = .error e ↔ ∃ pre x post err, listItems s = pre ++ x :: post ∧
        (∀ p ∈ pre, ∃ y, item p = .ok y) ∧ item x = .error err ∧
        e = "invalid list item " ++ quoted x ++ ": " ++ err) := by
  refine ⟨fun ps hp => ?_, fun ps hp => ?_, fun ps hp => ?_, fun ps hp hbare => ?_,
    listOf_intercalate_eq_ok_iff, fun item s ys => listOf_eq_ok_iff,
    fun item s e => listOf_eq_error_iff⟩
  · exact listOf_pieces hp (fun _ _ x _ => bare_toString x.toNat)
      fun _ _ x _ => unsigned_toString (u32_toNat_le x)
  · exact listOf_pieces hp (fun _ _ x _ => bare_toString x.toNat)
      fun _ _ x _ => unsigned_toString (u64_toNat_le x)
  · exact listOf_pieces hp (fun _ _ x _ => bare_toString x.val.toNat)
      fun _ _ x _ => clientCount_toString x.property
  · simpa using @listOf_pieces String String pure id id ps hp hbare fun _ _ _ _ => rfl

/-- Blanks around the items and an empty item are dropped: ` 4\t, ,8` reads as `[4, 8]`. -/
theorem listOf_round_trip_padded_servers :
    (∀ p ∈ ([⟨[' '], some 4, ['\t']⟩, ⟨[], none, [' ']⟩, ⟨[], some 8, []⟩] : List (Piece UInt32)),
      p.Padded) ∧
    listOf (unsigned 32) (",".intercalate
      (([⟨[' '], some 4, ['\t']⟩, ⟨[], none, [' ']⟩, ⟨[], some 8, []⟩] : List (Piece UInt32)).map
        (Piece.text toString))) = .ok [4, 8] :=
  have hp : ∀ p ∈ ([⟨[' '], some 4, ['\t']⟩, ⟨[], none, [' ']⟩, ⟨[], some 8, []⟩] :
      List (Piece UInt32)), p.Padded := by
    simp only [List.forall_mem_cons, List.not_mem_nil, IsEmpty.forall_iff, implies_true, and_true,
      Piece.Padded]
    decide
  ⟨hp, (listOf_round_trip.1 _ hp).trans rfl⟩

end CommandLine

end ClusterSweep
