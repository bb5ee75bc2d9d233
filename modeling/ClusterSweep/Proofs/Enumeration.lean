import Mathlib
import ClusterSweep.Space

/-!
# Enumerating a sweep space

The points of a space are the product of its seven dimensions in nested order, servers
outermost and clients innermost.  Position `m` of the list holds, in every dimension, the value
whose index is the digit of `m` in the mixed radix of the dimension sizes: `m` divided by the
stride of the dimension (how many consecutive points share one of its values, the product of the
sizes inside it), modulo its size; the outermost digit is not reduced, so a position past the end
names no point (`points_getElem?`).  Every combination of indices therefore appears exactly once,
in lexicographic order, and repeated values give repeated points.  The shapes are the same
product of the first five dimensions (`shapes_getElem?`).

Counting the points multiplies the sizes left to right in 64-bit words, so `Space.len` gives the
product exactly when no partial product leaves the word (`len_eq`).  A later empty dimension does
not save an earlier overflow: the product is never formed.
-/

namespace ClusterSweep

/-! ## Lists of blocks of one length -/

section Blocks

variable {α β : Type} {l : List α} {f : α → List β} {b : Nat}

/-- A list of blocks that all have length `b` is `b` times as long as the list of their keys. -/
theorem length_flatMap_of_length_eq (hf : ∀ a ∈ l, (f a).length = b) :
    (l.flatMap f).length = l.length * b := by
  rw [List.length_flatMap, List.map_congr_left hf, List.map_const', List.sum_replicate_nat]

/-- Position `m` of a list of blocks of length `b` is position `m % b` of block `m / b`. -/
theorem getElem?_flatMap_of_length_eq (hf : ∀ a ∈ l, (f a).length = b) (m : Nat) :
    (l.flatMap f)[m]? = l[m / b]?.bind fun a => (f a)[m % b]? := by
  rcases Nat.eq_zero_or_pos b with rfl | hb
  · -- empty blocks: there is nothing on either side
    have hnil : l.flatMap f = [] :=
      List.flatMap_eq_nil_iff.2 fun a ha => List.eq_nil_of_length_eq_zero (hf a ha)
    rw [hnil, List.getElem?_nil, Nat.div_zero]
    cases h0 : l[0]? with
    | none => rfl
    | some a => simp [List.eq_nil_of_length_eq_zero (hf a (List.mem_of_getElem? h0))]
  induction l generalizing m with
  | nil => simp
  | cons a l ih =>
    have ha := hf a List.mem_cons_self
    have hl : ∀ x ∈ l, (f x).length = b := fun x hx => hf x (List.mem_cons_of_mem a hx)
    rw [List.flatMap_cons]
    by_cases hm : m < b
    · rw [List.getElem?_append_left (by omega), Nat.div_eq_of_lt hm, Nat.mod_eq_of_lt hm]
      simp
    · -- past the first block: the rest of the list, at `m - b`
      have hq : m / b = (m - b) / b + 1 := Nat.div_eq_sub_div hb (by omega)
      have hr : m % b = (m - b) % b := Nat.mod_eq_sub_mod (by omega)
      rw [List.getElem?_append_right (by omega), ha, ih hl (m - b), hq, hr]
      simp

end Blocks

namespace Space

/-! ## Strides -/

/-- The sizes of the dimensions, outermost first. -/
def radices (s : Space) : List Nat := s.sizes.map (·.2)

/-- How many consecutive points share one value of dimension `j`: the product of the sizes of
the dimensions inside it. -/
def stride (s : Space) (j : Nat) : Nat := (s.radices.drop (j + 1)).prod

/-- How many consecutive shapes share one value of dimension `j`, among the first five. -/
def shapeStride (s : Space) (j : Nat) : Nat := ((s.radices.take 5).drop (j + 1)).prod

/-! ## Shapes and points -/

/-- A shape block of one number of servers holds every combination of the other four. -/
theorem shapes_length (s : Space) :
    s.shapes.length = s.servers.length * s.replicas.length * s.serverSpan.length *
      s.valueSize.length * s.keySpaceLen.length := by
  unfold shapes
  rw [length_flatMap_of_length_eq fun _ _ =>
    length_flatMap_of_length_eq fun _ _ =>
      length_flatMap_of_length_eq fun _ _ =>
        length_flatMap_of_length_eq fun _ _ => List.length_map _]
  simp only [Nat.mul_assoc]

theorem points_length (s : Space) :
    s.points.length = s.servers.length * s.replicas.length * s.serverSpan.length *
      s.valueSize.length * s.keySpaceLen.length * s.tests.length * s.clients.length := by
  unfold points
  rw [length_flatMap_of_length_eq fun _ _ =>
    length_flatMap_of_length_eq fun _ _ => List.length_map _, shapes_length]
  simp only [Nat.mul_assoc]

/-- The shape at position `m` takes in each numeric dimension the digit of `m` in the mixed
radix of their sizes. -/
theorem shapes_getElem? (s : Space) (m : Nat) :
    s.shapes[m]? = (do
      let servers ← s.servers[m / s.shapeStride 0]?
      let replicas ← s.replicas[m / s.shapeStride 1 % s.replicas.length]?
      let serverSpan ← s.serverSpan[m / s.shapeStride 2 % s.serverSpan.length]?
      let valueSize ← s.valueSize[m / s.shapeStride 3 % s.valueSize.length]?
      let keySpaceLen ← s.keySpaceLen[m / s.shapeStride 4 % s.keySpaceLen.length]?
      pure (⟨servers, replicas, serverSpan, valueSize, keySpaceLen⟩ : Shape)) := by
  unfold shapes
  -- peel the four levels of blocks, outermost first
  rw [getElem?_flatMap_of_length_eq fun _ _ =>
    length_flatMap_of_length_eq fun _ _ =>
      length_flatMap_of_length_eq fun _ _ =>
        length_flatMap_of_length_eq fun _ _ => List.length_map _]
  simp only [getElem?_flatMap_of_length_eq fun _ _ =>
      length_flatMap_of_length_eq fun _ _ =>
        length_flatMap_of_length_eq fun _ _ => List.length_map _,
    getElem?_flatMap_of_length_eq fun _ _ =>
      length_flatMap_of_length_eq fun _ _ => List.length_map _,
    getElem?_flatMap_of_length_eq fun _ _ => List.length_map _,
    List.getElem?_map, Nat.mod_mul_left_div_self, Nat.mod_mul_left_mod]
  simp [shapeStride, radices, sizes, Option.bind_eq_bind, Option.map_eq_bind]

/-- The point at position `m` takes in each dimension the digit of `m` in the mixed radix of the
dimension sizes, clients the least significant. -/
theorem points_getElem? (s : Space) (m : Nat) :
    s.points[m]? = (do
      let servers ← s.servers[m / s.stride 0]?
      let replicas ← s.replicas[m / s.stride 1 % s.replicas.length]?
      let serverSpan ← s.serverSpan[m / s.stride 2 % s.serverSpan.length]?
      let valueSize ← s.valueSize[m / s.stride 3 % s.valueSize.length]?
      let keySpaceLen ← s.keySpaceLen[m / s.stride 4 % s.keySpaceLen.length]?
      let test ← s.tests[m / s.stride 5 % s.tests.length]?
      let clients ← s.clients[m / s.stride 6 % s.clients.length]?
      pure (⟨⟨servers, replicas, serverSpan, valueSize, keySpaceLen⟩, test, clients⟩ : Point)) := by
  unfold points
  -- the shape is block `m / (tests · clients)`; within it the test, then the clients
  simp only [getElem?_flatMap_of_length_eq fun _ _ =>
      length_flatMap_of_length_eq fun _ _ => List.length_map _,
    getElem?_flatMap_of_length_eq fun _ _ => List.length_map _,
    List.getElem?_map, Nat.mod_mul_left_div_self, Nat.mod_mul_left_mod, shapes_getElem?]
  simp [stride, shapeStride, radices, sizes, Option.bind_eq_bind, Option.map_eq_bind,
    Nat.div_div_eq_div_mul, Nat.mul_assoc, Nat.mul_comm, Option.bind_assoc]

/-- With two server counts, three tests and two client counts, position `6` opens the second
server count. -/
example :
    ({ servers := [4, 8], tests := ["get", "set", "incr"], clients := [1, 12] } : Space).points[6]? =
      some ⟨⟨8, 3, 1, 3, 1⟩, "get", 1⟩ := by
  rfl

/-! ## Counting the points -/

/-- Multiplying left to right in a word of largest value `bound`, starting from `a`: the product,
unless some partial product leaves the word. -/
theorem foldlM_checkedMul (bound : Nat) (ns : List Nat) (a : Nat) (ha : a ≤ bound) :
    ns.foldlM (checkedMul bound) a =
      if ∀ j ≤ ns.length, a * (ns.take j).prod ≤ bound then .ok (a * ns.prod) else .error .mul := by
  induction ns generalizing a with
  | nil =>
    simp only [List.foldlM_nil, List.length_nil, List.prod_nil, Nat.mul_one]
    simp [ha]
    rfl
  | cons n ns ih =>
    -- the partial products of `n :: ns` from `a` are `a` and those of `ns` from `a * n`
    have hprefix : (∀ j ≤ ns.length + 1, a * ((n :: ns).take j).prod ≤ bound) ↔
        ∀ j ≤ ns.length, a * n * (ns.take j).prod ≤ bound := by
      constructor
      · intro hall j hj
        simpa [List.take_succ_cons, Nat.mul_assoc] using hall (j + 1) (by omega)
      · intro hall j hj
        cases j with
        | zero => simpa using ha
        | succ j => simpa [List.take_succ_cons, Nat.mul_assoc] using hall j (by omega)
    by_cases hn : a * n ≤ bound
    · have hstep : checkedMul bound a n = .ok (a * n) := checkedMul_ok_iff.2 ⟨hn, rfl⟩
      rw [List.foldlM_cons, hstep]
      show ns.foldlM (checkedMul bound) (a * n) = _
      rw [ih (a * n) hn]
      simp only [List.length_cons, hprefix, List.prod_cons, Nat.mul_assoc]
    · have hstep : checkedMul bound a n = .error .mul := checkedMul_error_iff.2 (by omega)
      have hfail : ¬∀ j ≤ ns.length + 1, a * ((n :: ns).take j).prod ≤ bound := fun hall => by
        have := hall 1 (by omega)
        simp at this
        omega
      rw [List.foldlM_cons, hstep, List.length_cons, if_neg hfail]
      rfl

/-- The number of points, or the overflow of the first partial product past 64 bits. -/
theorem len_eq (s : Space) :
    s.len = if ∀ j ≤ (7 : Nat), (s.radices.take j).prod ≤ u64Max then .ok s.radices.prod
      else .error .mul := by
  have hfold : s.len = s.radices.foldlM (checkedMul u64Max) 1 := by
    rw [radices, List.foldlM_map]
    rfl
  rw [hfold, foldlM_checkedMul _ _ _ (by decide)]
  simp [radices, sizes]

/-- A count that does not overflow is the number of points. -/
theorem eq_points_length_of_len_eq_ok {s : Space} {n : Nat} (h : s.len = .ok n) :
    n = s.points.length := by
  rw [len_eq] at h
  split at h
  · rw [points_length, ← Except.ok.inj h]
    simp only [radices, sizes, List.map_cons, List.map_nil, List.prod_cons, List.prod_nil,
      Nat.mul_one, Nat.mul_assoc]
  · exact nomatch h

/-- A space with countable points is empty exactly when one of its dimensions is. -/
theorem isEmpty_eq_ok_iff (s : Space) (b : Bool) :
    s.isEmpty = .ok b ↔
      (∀ j ≤ (7 : Nat), (s.radices.take j).prod ≤ u64Max) ∧ (b = true ↔ 0 ∈ s.radices) := by
  rw [isEmpty, len_eq]
  split
  · rename_i hfit
    show Except.ok (s.radices.prod == 0) = .ok b ↔ _
    rw [Except.ok.injEq, Bool.eq_iff_iff, beq_iff_eq, ← List.prod_eq_zero_iff]
    exact ⟨fun h => ⟨hfit, h.symm⟩, fun h => h.2.symm⟩
  · rename_i hover
    show Except.error Overflow.mul = .ok b ↔ _
    exact ⟨fun h => (nomatch h), fun h => absurd h.1 hover⟩

/-! ## The enumeration as a whole -/

/-- The points are the product of the seven dimensions: as many as the product of their sizes,
the point at position `m` made of the values at the mixed-radix digits of `m` (clients least
significant), and the same for the shapes and the first five dimensions; the points are the
shapes expanded by tests, then clients.  Counting them multiplies left to right in 64 bits, and
the count is zero exactly when some dimension is empty. -/
theorem points_enumerate_product (s : Space) :
    s.points.length = s.servers.length * s.replicas.length * s.serverSpan.length *
      s.valueSize.length * s.keySpaceLen.length * s.tests.length * s.clients.length ∧
    (∀ m, s.points[m]? = (do
      let servers ← s.servers[m / s.stride 0]?
      let replicas ← s.replicas[m / s.stride 1 % s.replicas.length]?
      let serverSpan ← s.serverSpan[m / s.stride 2 % s.serverSpan.length]?
      let valueSize ← s.valueSize[m / s.stride 3 % s.valueSize.length]?
      let keySpaceLen ← s.keySpaceLen[m / s.stride 4 % s.keySpaceLen.length]?
      let test ← s.tests[m / s.stride 5 % s.tests.length]?
      let clients ← s.clients[m / s.stride 6 % s.clients.length]?
      pure (⟨⟨servers, replicas, serverSpan, valueSize, keySpaceLen⟩, test, clients⟩ : Point))) ∧
    s.shapes.length = s.servers.length * s.replicas.length * s.serverSpan.length *
      s.valueSize.length * s.keySpaceLen.length ∧
    (∀ m, s.shapes[m]? = (do
      let servers ← s.servers[m / s.shapeStride 0]?
      let replicas ← s.replicas[m / s.shapeStride 1 % s.replicas.length]?
      let serverSpan ← s.serverSpan[m / s.shapeStride 2 % s.serverSpan.length]?
      let valueSize ← s.valueSize[m / s.shapeStride 3 % s.valueSize.length]?
      let keySpaceLen ← s.keySpaceLen[m / s.shapeStride 4 % s.keySpaceLen.length]?
      pure (⟨servers, replicas, serverSpan, valueSize, keySpaceLen⟩ : Shape))) ∧
    s.points = s.shapes.flatMap (fun shape => s.tests.flatMap fun test =>
      s.clients.map fun clients => (⟨shape, test, clients⟩ : Point)) ∧
    s.len = (if ∀ j ≤ (7 : Nat), (s.radices.take j).prod ≤ u64Max then .ok s.radices.prod
      else .error .mul) ∧
    ∀ b, s.isEmpty = .ok b ↔
      (∀ j ≤ (7 : Nat), (s.radices.take j).prod ≤ u64Max) ∧ (b = true ↔ 0 ∈ s.radices) :=
  ⟨points_length s, points_getElem? s, shapes_length s, shapes_getElem? s, rfl, len_eq s,
    isEmpty_eq_ok_iff s⟩

end Space

end ClusterSweep
