import Mathlib
import ClusterSweep.Text.Lines

/-!
# Reading in order

Files, lines and tokens are read one after the other, and the first one that fails ends the
reading with its error.  `FirstFailure g l e` says this of reading the list `l` with `g`: every
element before some element reads, and that element fails with `e`; what comes after it is never
looked at.  Reading a whole list with `List.mapM` fails exactly with its first failure
(`mapM_eq_error_iff`) and otherwise gives what each element reads (`mapM_eq_ok_iff`).  A reading
that appends what each element gives to what it holds gives the concatenation, in order, after
whatever it started with (`foldlM_append_eq`).

A byte stream is cut into lines the way a reader cuts it (`Text.splitLines`): the pieces between
line feeds, each without one carriage return at its end, and after the last line feed the rest,
kept whole, when it is not empty.  `Text.byteLines` is that cut (`Text.byteLines_eq_splitLines`).
-/

namespace ClusterSweep

section FirstFailure

variable {α β ε : Type} {g : α → Except ε β}

/-- Reading `l` element by element with `g` stops at the first element that fails: every element
before it reads, and it fails with `e`. -/
def FirstFailure (g : α → Except ε β) (l : List α) (e : ε) : Prop :=
  ∃ pre a post, l = pre ++ a :: post ∧ (∀ x ∈ pre, ∃ b, g x = .ok b) ∧ g a = .error e

theorem not_firstFailure_nil {e : ε} : ¬ FirstFailure g [] e := by
  rintro ⟨pre, a, post, h, -⟩
  simp at h

/-- A list whose head reads fails first where its tail does. -/
theorem firstFailure_cons_of_ok {a : α} {b : β} (ha : g a = .ok b) {l : List α} {e : ε} :
    FirstFailure g (a :: l) e ↔ FirstFailure g l e := by
  constructor
  · rintro ⟨pre, x, post, h, hpre, hx⟩
    cases pre with
    | nil =>
      obtain ⟨rfl, -⟩ := List.cons.inj h
      rw [ha] at hx
      cases hx
    | cons y pre =>
      obtain ⟨-, rfl⟩ := List.cons.inj h
      exact ⟨pre, x, post, rfl, fun z hz => hpre z (.tail _ hz), hx⟩
  · rintro ⟨pre, x, post, rfl, hpre, hx⟩
    refine ⟨a :: pre, x, post, rfl, ?_, hx⟩
    rintro z (_ | ⟨_, hz⟩)
    · exact ⟨b, ha⟩
    · exact hpre z hz

/-- A list whose head fails fails first there. -/
theorem firstFailure_cons_of_error {a : α} {e' : ε} (ha : g a = .error e') {l : List α} {e : ε} :
    FirstFailure g (a :: l) e ↔ e' = e := by
  constructor
  · rintro ⟨pre, x, post, h, hpre, hx⟩
    cases pre with
    | nil =>
      obtain ⟨rfl, -⟩ := List.cons.inj h
      rw [ha] at hx
      exact Except.error.inj hx
    | cons y pre =>
      obtain ⟨rfl, -⟩ := List.cons.inj h
      obtain ⟨b, hb⟩ := hpre _ (.head _)
      rw [ha] at hb
      cases hb
  · rintro rfl
    exact ⟨[], a, l, rfl, by simp, ha⟩

/-- Reading a list fails exactly with its first failure. -/
theorem mapM_eq_error_iff {e : ε} : ∀ {l : List α}, l.mapM g = .error e ↔ FirstFailure g l e
  | [] => by
    simp only [List.mapM_nil, not_firstFailure_nil, iff_false]
    exact nofun
  | a :: l => by
    rw [List.mapM_cons]
    cases ha : g a with
    | error e' =>
      rw [firstFailure_cons_of_error ha]
      simp [bind, Except.bind]
    | ok b =>
      rw [firstFailure_cons_of_ok ha, ← mapM_eq_error_iff]
      cases l.mapM g <;> simp [bind, Except.bind, pure, Except.pure]

/-- Reading a list succeeds exactly when every element reads, each to its own value. -/
theorem mapM_eq_ok_iff : ∀ {l : List α} {bs : List β},
    l.mapM g = .ok bs ↔ List.Forall₂ (fun a b => g a = .ok b) l bs
  | [], bs => by cases bs <;> simp [pure, Except.pure]
  | a :: l, bs => by
    rw [List.mapM_cons]
    cases ha : g a with
    | error e => cases bs <;> simp [bind, Except.bind, ha]
    | ok b =>
      cases hl : l.mapM g with
      | error e =>
        cases bs with
        | nil => simp [bind, Except.bind]
        | cons c cs =>
          simp only [bind, Except.bind, List.forall₂_cons, reduceCtorEq, false_iff, not_and]
          intro _ hcs
          rw [mapM_eq_ok_iff.2 hcs] at hl
          cases hl
      | ok cs =>
        have hcs := mapM_eq_ok_iff.1 hl
        cases bs with
        | nil => simp [bind, Except.bind, pure, Except.pure]
        | cons c bs =>
          simp only [bind, Except.bind, pure, Except.pure, Except.ok.injEq, List.cons.injEq,
            List.forall₂_cons, ha]
          constructor
          · rintro ⟨rfl, rfl⟩
            exact ⟨rfl, hcs⟩
          · rintro ⟨rfl, hbs⟩
            exact ⟨rfl, List.right_unique_forall₂'
              (fun _ _ _ h₁ h₂ => Except.ok.inj (h₁.symm.trans h₂)) hcs hbs⟩

/-- Reading a list either reads every element or fails first somewhere. -/
theorem forall₂_or_firstFailure (l : List α) :
    (∃ bs, List.Forall₂ (fun a b => g a = .ok b) l bs) ∨ ∃ e, FirstFailure g l e := by
  cases h : l.mapM g with
  | error e => exact .inr ⟨e, mapM_eq_error_iff.1 h⟩
  | ok bs => exact .inl ⟨bs, mapM_eq_ok_iff.1 h⟩

theorem map_eq_error_iff {γ : Type} {f : β → γ} {x : Except ε β} {e : ε} :
    f <$> x = .error e ↔ x = .error e := by
  cases x <;> simp [Functor.map, Except.map]

theorem map_eq_ok_iff {γ : Type} {f : β → γ} {x : Except ε β} {c : γ} :
    f <$> x = .ok c ↔ ∃ b, x = .ok b ∧ f b = c := by
  cases x <;> simp [Functor.map, Except.map]

/-- Appending what each element reads to what is held gives, after what was held at the start,
the concatenation of the readings in order; the first failure ends it. -/
theorem foldlM_append_eq (g : α → Except ε (List β)) : ∀ (l : List α) (acc : List β),
    l.foldlM (fun acc a => g a >>= fun xs => pure (acc ++ xs)) acc =
      (fun xss => acc ++ xss.flatten) <$> l.mapM g
  | [], acc => by simp [pure, Except.pure, Functor.map, Except.map]
  | a :: l, acc => by
    rw [List.foldlM_cons, List.mapM_cons]
    cases g a with
    | error e => rfl
    | ok xs =>
      have ih := foldlM_append_eq g l (acc ++ xs)
      simp only [bind, Except.bind, pure, Except.pure] at ih ⊢
      rw [ih]
      cases l.mapM g <;> simp [Functor.map, Except.map]

end FirstFailure

namespace Text

/-- A line without the one carriage return at its end, if it has one. -/
def stripReturn (l : List UInt8) : List UInt8 :=
  if l.getLast? = some carriageReturn then l.dropLast else l

/-- The lines of a byte stream as a reader cuts it: the pieces between line feeds, each without
one carriage return at its end, then the rest after the last line feed, kept whole, when it is
not empty. -/
def splitLines (bs : List UInt8) : List (List UInt8) :=
  let pieces := bs.splitOn lineFeed
  pieces.dropLast.map stripReturn ++ pieces.getLast?.toList.filter (!·.isEmpty)

/-- Dropping a carriage return from a reversed line is stripping it from the line. -/
theorem reverse_dropReturn (cur : List UInt8) : (dropReturn cur).reverse = stripReturn cur.reverse := by
  cases cur with
  | nil => rfl
  | cons b rest =>
    by_cases hb : b = carriageReturn
    · simp [dropReturn, stripReturn, hb]
    · simp [dropReturn, stripReturn, hb]

/-- The text after a line feed is cut on its own. -/
theorem splitLines_append_lineFeed {cur : List UInt8} (hcur : lineFeed ∉ cur) (bs : List UInt8) :
    splitLines (cur ++ lineFeed :: bs) = stripReturn cur :: splitLines bs := by
  unfold splitLines
  rw [List.splitOn_append_cons_self_of_not_mem hcur]
  obtain ⟨p, ps, hps⟩ := List.exists_cons_of_ne_nil (List.splitOn_ne_nil lineFeed bs)
  rw [hps]
  simp [List.dropLast_cons_of_ne_nil, List.getLast?_cons]

/-- The partial line `cur`, held reversed, followed by `bs`, is cut as the stream `cur ++ bs`. -/
theorem linesFrom_eq : ∀ (bs cur : List UInt8), lineFeed ∉ cur →
    linesFrom bs cur = splitLines (cur.reverse ++ bs)
  | [], cur, hcur => by
    have hrev : lineFeed ∉ cur.reverse := by simpa using hcur
    simp only [linesFrom, splitLines, List.splitOn_eq_singleton hrev, List.append_nil]
    cases cur <;> simp
  | b :: bs, cur, hcur => by
    unfold linesFrom
    by_cases hb : b = lineFeed
    · -- a line feed ends the partial line
      subst hb
      rw [if_pos (beq_self_eq_true _), linesFrom_eq bs [] (by simp),
        splitLines_append_lineFeed (by simpa using hcur), reverse_dropReturn]
      rfl
    · rw [if_neg (by simpa using hb), linesFrom_eq bs (b :: cur) (by simp [hcur, Ne.symm hb])]
      simp

/-- The lines of a byte stream are those a reader cuts. -/
theorem byteLines_eq_splitLines (data : ByteArray) : byteLines data = splitLines data.toList := by
  rw [byteLines, linesFrom_eq data.toList [] (by simp)]
  rfl

/-- A line's bytes as text, `none` when they are not UTF-8. -/
def decodeLine (bs : List UInt8) : Option String := String.fromUTF8? (ByteArray.mk bs.toArray)

/-- The decoded lines of a byte stream are its lines as a reader cuts them, each decoded on its
own. -/
theorem decodeLines_eq (data : ByteArray) :
    decodeLines data = (splitLines data.toList).map decodeLine := by
  rw [decodeLines, byteLines_eq_splitLines]
  rfl

end Text

end ClusterSweep
