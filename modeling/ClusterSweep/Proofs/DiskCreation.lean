import Mathlib
import ClusterSweep.Proofs.DiskFrame

/-!
# Making directories and files along paths that lead where they spell

A path leads to the place its components spell when none of them goes to a parent and no place
on the way is a link of the host (`Disk.Direct`); an absolute path starts at the root and a
relative one at the working directory.  Its walk goes through the places of its non-empty
prefixes, the stems of the place (`Disk.Stem`), and gets through when every stem before the last
is a directory (`Disk.resolve_direct_eq_ok`); when none of them is a file, the only other answer
is `notFound` (`Disk.resolve_direct_eq_notFound`).

Making a directory with its parents on a disk with no file on the way makes every stem of the
path a directory and changes nothing else (`Disk.createDirAll_direct`, `Disk.DirsMade`): the
parents are made first, by induction on the depth, and each `makeDir` adds one directory or finds
it there.  Reading and creating a file whose directories are all there look at the file's own
place only (`Disk.readFile_direct`, `Disk.fileSlot_direct`).
-/

namespace ClusterSweep

namespace Disk

/-! ## Stems of a place -/

/-- `a` is a directory on the way to the place `p`, or `p` itself: a non-empty prefix of it. -/
def Stem (a p : List String) : Prop := a ≠ [] ∧ a <+: p

instance (a p : List String) : Decidable (Stem a p) := inferInstanceAs (Decidable (_ ∧ _))

section Stem

variable {a p : List String}

theorem Stem.ne_nil (h : Stem a p) : p ≠ [] := by
  rintro rfl
  exact h.1 (List.prefix_nil.1 h.2)

theorem Stem.of_dropLast (h : Stem a p.dropLast) : Stem a p :=
  ⟨h.1, h.2.trans (List.dropLast_prefix p)⟩

theorem Stem.length_le (h : Stem a p) : a.length ≤ p.length := h.2.length_le

theorem stem_self (hp : p ≠ []) : Stem p p := ⟨hp, List.prefix_refl p⟩

@[simp] theorem not_stem_nil : ¬ Stem a [] := fun h => h.ne_nil rfl

/-- A stem of a place is the place or a stem of its parent. -/
theorem Stem.eq_or_dropLast (h : Stem a p) : a = p ∨ Stem a p.dropLast := by
  have hp := h.ne_nil
  have hpre := h.2
  rw [← List.dropLast_concat_getLast hp, List.prefix_concat_iff] at hpre
  rcases hpre with heq | hpre
  · exact .inl (heq.trans (List.dropLast_concat_getLast hp))
  · exact .inr ⟨h.1, hpre⟩

theorem not_stem_dropLast_self : ¬ Stem p p.dropLast := fun h => by
  have hlen := h.length_le
  have hp : p ≠ [] := h.of_dropLast.ne_nil
  have : 0 < p.length := List.length_pos_iff.2 hp
  rw [List.length_dropLast] at hlen
  omega

/-- The stems of `c :: l` are `[c]` and `c` before each stem of `l`. -/
theorem stem_cons {c : String} {l : List String} :
    Stem a (c :: l) ↔ a = [c] ∨ ∃ b, Stem b l ∧ a = c :: b := by
  constructor
  · rintro ⟨ha, hpre⟩
    rcases List.prefix_cons_iff.1 hpre with rfl | ⟨t, rfl, ht⟩
    · exact absurd rfl ha
    · by_cases htn : t = []
      · subst htn
        exact .inl rfl
      · exact .inr ⟨t, ⟨htn, ht⟩, rfl⟩
  · rintro (rfl | ⟨b, hb, rfl⟩)
    · exact ⟨List.cons_ne_nil _ _, List.cons_prefix_cons.2 ⟨rfl, List.nil_prefix⟩⟩
    · exact ⟨List.cons_ne_nil _ _, List.cons_prefix_cons.2 ⟨rfl, hb.2⟩⟩

end Stem

/-! ## Paths that lead where they spell -/

/-- A component looked up as the entry of a directory: not `..`, and no longer than a name may
be. -/
def Plain (c : String) : Prop := c ≠ ".." ∧ c.utf8ByteSize ≤ nameMax

/-- A path the system accepts whole, each of whose components is short enough to be looked
up. -/
def Fits (path : String) : Prop :=
  checkPath path = .ok () ∧ ∀ c ∈ components path, c.utf8ByteSize ≤ nameMax

/-- The host holds no link at the place `p`. -/
def Unlinked (h : Host.System) (p : List String) : Prop := ∀ t, h.entry? p ≠ some (.link t)

/-- Components that lead to the place they spell on the host `h`: none goes to a parent, and no
place on the way, nor the place itself, is a link of the host. -/
structure Direct (h : Host.System) (cs : List String) : Prop where
  no_parent : ".." ∉ cs
  unlinked : ∀ a, Stem a cs → Unlinked h a

section Direct

variable {h : Host.System} {a b cs : List String}

theorem unlinked_of_entry {p : List String} (hp : h.entry? p = none ∨ h.entry? p = some .dir) :
    Unlinked h p := by
  intro t ht
  rcases hp with hp | hp <;> rw [hp] at ht <;> cases ht

/-- Where no link stands, the entry `c` of a directory is one component further. -/
theorem child_of_unlinked {cur : List String} {c : String} (hl : Unlinked h (cur ++ [c])) :
    child h cur c = cur ++ [c] := by
  unfold child Host.System.follow
  split
  · rename_i t ht
    exact absurd ht (hl t)
  · rfl

theorem Direct.dropLast (hd : Direct h cs) : Direct h cs.dropLast :=
  ⟨fun hp => hd.no_parent (List.dropLast_subset _ hp), fun a ha => hd.unlinked a ha.of_dropLast⟩

/-- A path is absolute, its first component the root, or it starts at the working directory. -/
theorem origin_cases (cs : List String) :
    (∃ rest, cs = "/" :: rest ∧ origin cs = (["/"], rest)) ∨ origin cs = ([], cs) := by
  cases cs with
  | nil => exact .inr rfl
  | cons c rest =>
    by_cases hc : c = "/"
    · subst hc
      exact .inl ⟨rest, rfl, rfl⟩
    · exact .inr (by simp [origin, hc])

theorem origin_append (cs : List String) : (origin cs).1 ++ (origin cs).2 = cs := by
  rcases origin_cases cs with ⟨rest, rfl, ho⟩ | ho <;> rw [ho] <;> rfl

theorem mem_of_mem_origin {c : String} (hc : c ∈ (origin cs).2) : c ∈ cs := by
  rw [← origin_append cs]
  exact List.mem_append_right _ hc

theorem Stem.append_left (s : List String) (hb : Stem b a) : Stem (s ++ b) (s ++ a) :=
  ⟨by simp [hb.1], (List.prefix_append_right_inj s).2 hb.2⟩

/-- A stem of what is walked from a path's origin is a stem of the path. -/
theorem Stem.of_origin (hb : Stem b (origin cs).2) : Stem ((origin cs).1 ++ b) cs := by
  simpa only [origin_append] using hb.append_left (origin cs).1

theorem Stem.of_origin_dropLast (hb : Stem b (origin cs).2.dropLast) :
    Stem ((origin cs).1 ++ b) cs.dropLast := by
  have hne : (origin cs).2 ≠ [] := by
    rintro hnil
    rw [hnil] at hb
    exact not_stem_nil hb
  simpa only [← List.dropLast_append_of_ne_nil hne, origin_append] using hb.append_left (origin cs).1

/-- A stem before the last of a path other than the root is one of what is walked from the
path's origin. -/
theorem Stem.to_origin_dropLast (ha : Stem a cs.dropLast) (hroot : a ≠ ["/"]) :
    ∃ b, Stem b (origin cs).2.dropLast ∧ a = (origin cs).1 ++ b := by
  rcases origin_cases cs with ⟨rest, rfl, ho⟩ | ho <;> rw [ho]
  · cases rest with
    | nil => exact absurd ha not_stem_nil
    | cons c rest =>
      rw [List.dropLast_cons_of_ne_nil (List.cons_ne_nil _ _)] at ha
      rcases stem_cons.1 ha with rfl | ⟨b, hb, rfl⟩
      · exact absurd rfl hroot
      · exact ⟨b, hb, rfl⟩
  · exact ⟨a, ha, rfl⟩

/-- A direct path's components after its origin are plain, when each fits. -/
theorem Direct.plain (hd : Direct h cs) (hsize : ∀ c ∈ cs, c.utf8ByteSize ≤ nameMax) :
    ∀ c ∈ (origin cs).2, Plain c := fun c hc =>
  ⟨fun hp => hd.no_parent (hp ▸ mem_of_mem_origin hc), hsize c (mem_of_mem_origin hc)⟩

/-- With no `..` and no link on the way, the places a walk steps through are the components
appended one by one. -/
theorem endPlace_plain : ∀ {cur cs : List String}, ".." ∉ cs →
    (∀ a, Stem a cs → Unlinked h (cur ++ a)) → endPlace h cur cs = cur ++ cs
  | _, [], _, _ => by simp [endPlace]
  | cur, c :: cs, hup, hl => by
    have hc : c ≠ ".." := fun hc => hup (hc ▸ List.mem_cons_self)
    have hstep : stepPlace h cur c = cur ++ [c] := by
      simp [stepPlace, hc, child_of_unlinked (hl [c] (stem_cons.2 (.inl rfl)))]
    have ih := @endPlace_plain (cur ++ [c]) cs (fun hp => hup (.tail _ hp))
      fun a ha => by simpa using hl (c :: a) (stem_cons.2 (.inr ⟨a, ha, rfl⟩))
    show endPlace h (stepPlace h cur c) cs = _
    rw [hstep, ih, List.append_assoc, List.singleton_append]

/-- A direct path reaches the place it spells. -/
theorem reach_direct (hd : Direct h cs) : reach h cs = cs := by
  rw [reach, endPlace_plain (fun hp => hd.no_parent (mem_of_mem_origin hp))
    (fun b hb => hd.unlinked _ hb.of_origin), origin_append]

end Direct

section Walk

variable {d : Disk}

/-- One step of a walk: past a plain component that is no link of the host and names a
directory, the walk of a longer path goes on from that directory. -/
theorem walk_cons_of_dir {cur rest : List String} {c : String} (hrest : rest ≠ []) (hc : Plain c)
    (hl : Unlinked d.host (cur ++ [c])) (hdir : d.find? (cur ++ [c]) = some .dir) :
    d.walk cur (c :: rest) = d.walk (cur ++ [c]) rest := by
  obtain ⟨r, rs, rfl⟩ := List.exists_cons_of_ne_nil hrest
  simp [walk, hc.1, not_lt.2 hc.2, child_of_unlinked hl, hdir]

/-- The other step: a walk of a longer path past a plain component that is no link of the host
and names nothing reports `notFound`. -/
theorem walk_cons_of_none {cur rest : List String} {c : String} (hrest : rest ≠ []) (hc : Plain c)
    (hl : Unlinked d.host (cur ++ [c])) (hnone : d.find? (cur ++ [c]) = none) :
    d.walk cur (c :: rest) = .error .notFound := by
  obtain ⟨r, rs, rfl⟩ := List.exists_cons_of_ne_nil hrest
  simp [walk, hc.1, not_lt.2 hc.2, child_of_unlinked hl, hnone]

/-- A walk along plain components, past no link, gets through when every stem before the last is
a directory, and ends at the place the components spell. -/
theorem walk_plain_eq_ok : ∀ {cur cs : List String}, (∀ c ∈ cs, Plain c) →
    (∀ a, Stem a cs → Unlinked d.host (cur ++ a)) →
    (∀ a, Stem a cs.dropLast → d.find? (cur ++ a) = some .dir) →
    d.walk cur cs = .ok (cur ++ cs)
  | cur, [], _, _, _ => by simp [walk]
  | cur, [c], hcs, hl, _ => by
    obtain ⟨h₁, h₂⟩ := hcs c (.head _)
    simp [walk, h₁, not_lt.2 h₂, child_of_unlinked (hl [c] (stem_cons.2 (.inl rfl)))]
  | cur, c :: c' :: rest, hcs, hl, hdirs => by
    rw [List.dropLast_cons_cons] at hdirs
    -- the rest is walked from the directory of `c`
    have ih : d.walk (cur ++ [c]) (c' :: rest) = .ok (cur ++ [c] ++ c' :: rest) :=
      walk_plain_eq_ok (fun x hx => hcs x (.tail _ hx))
        (fun a ha => by simpa using hl (c :: a) (stem_cons.2 (.inr ⟨a, ha, rfl⟩)))
        fun a ha => by simpa using hdirs (c :: a) (stem_cons.2 (.inr ⟨a, ha, rfl⟩))
    rw [walk_cons_of_dir (List.cons_ne_nil _ _) (hcs c (.head _)) (hl [c] (stem_cons.2 (.inl rfl)))
      (hdirs [c] (stem_cons.2 (.inl rfl))), ih]
    simp

/-- With no file on the way, a walk along plain components, past no link, that meets a missing
directory reports `notFound`. -/
theorem walk_plain_eq_notFound : ∀ {cur cs : List String}, (∀ c ∈ cs, Plain c) →
    (∀ a, Stem a cs → Unlinked d.host (cur ++ a)) →
    (∀ a, Stem a cs.dropLast → d.find? (cur ++ a) = none ∨ d.find? (cur ++ a) = some .dir) →
    (∃ a, Stem a cs.dropLast ∧ d.find? (cur ++ a) = none) → d.walk cur cs = .error .notFound
  | _, [], _, _, _, ⟨_, ha, _⟩ => absurd ha not_stem_nil
  | _, [_], _, _, _, ⟨_, ha, _⟩ => absurd ha not_stem_nil
  | cur, c :: c' :: rest, hcs, hl, hway, ⟨a, ha, hnone⟩ => by
    rw [List.dropLast_cons_cons] at hway ha
    have hc := hcs c (.head _)
    have hlc := hl [c] (stem_cons.2 (.inl rfl))
    rcases hway [c] (stem_cons.2 (.inl rfl)) with hcnone | hcdir
    · exact walk_cons_of_none (List.cons_ne_nil _ _) hc hlc hcnone
    · -- the directory of `c` is there, so the missing one lies further
      rcases stem_cons.1 ha with rfl | ⟨b, hb, rfl⟩
      · rw [hcdir] at hnone
        exact absurd hnone (by simp)
      · rw [walk_cons_of_dir (List.cons_ne_nil _ _) hc hlc hcdir]
        exact walk_plain_eq_notFound (fun x hx => hcs x (.tail _ hx))
          (fun b hb => by simpa using hl (c :: b) (stem_cons.2 (.inr ⟨b, hb, rfl⟩)))
          (fun b hb => by simpa using hway (c :: b) (stem_cons.2 (.inr ⟨b, hb, rfl⟩)))
          ⟨b, hb, by simpa using hnone⟩

/-- A walk along plain components, past no link and through directories, refuses a last name
longer than `nameMax` bytes. -/
theorem walk_plain_append_long {c : String} (hc : c ≠ "..") (hlong : nameMax < c.utf8ByteSize) :
    ∀ {cur cs : List String}, (∀ x ∈ cs, Plain x) → (∀ a, Stem a cs → Unlinked d.host (cur ++ a)) →
      (∀ a, Stem a cs → d.find? (cur ++ a) = some .dir) → d.walk cur (cs ++ [c]) = .error .nameTooLong
  | cur, [], _, _, _ => by simp [walk, hc, hlong]
  | cur, x :: rest, hcs, hl, hdirs => by
    rw [List.cons_append, walk_cons_of_dir (List.append_ne_nil_of_right_ne_nil rest
      (List.cons_ne_nil c [])) (hcs x (.head _)) (hl [x] (stem_cons.2 (.inl rfl)))
      (hdirs [x] (stem_cons.2 (.inl rfl)))]
    -- the rest is walked from the directory of `x`
    exact walk_plain_append_long hc hlong (fun y hy => hcs y (.tail _ hy))
      (fun a ha => by simpa using hl (x :: a) (stem_cons.2 (.inr ⟨a, ha, rfl⟩)))
      fun a ha => by simpa using hdirs (x :: a) (stem_cons.2 (.inr ⟨a, ha, rfl⟩))

variable {cs : List String}

/-- A direct path whose components fit and whose stems before the last are directories resolves
to the place it spells. -/
theorem resolve_direct_eq_ok (hd : Direct d.host cs) (hsize : ∀ c ∈ cs, c.utf8ByteSize ≤ nameMax)
    (hdirs : ∀ a, Stem a cs.dropLast → d.find? a = some .dir) : d.resolve cs = .ok cs := by
  have hwalk := walk_plain_eq_ok (d := d) (hd.plain hsize)
    (fun b hb => hd.unlinked _ hb.of_origin) fun b hb => hdirs _ hb.of_origin_dropLast
  rwa [origin_append, ← resolve_eq] at hwalk

/-- With no file on the way, a direct path one of whose directories is missing resolves to
`notFound`. -/
theorem resolve_direct_eq_notFound (hd : Direct d.host cs)
    (hsize : ∀ c ∈ cs, c.utf8ByteSize ≤ nameMax)
    (hway : ∀ a, Stem a cs.dropLast → d.find? a = none ∨ d.find? a = some .dir)
    (hmiss : ∃ a, Stem a cs.dropLast ∧ d.find? a = none) : d.resolve cs = .error .notFound := by
  obtain ⟨a, ha, hnone⟩ := hmiss
  -- the root is always there, so the missing directory lies after the origin
  have hroot : a ≠ ["/"] := by
    rintro rfl
    simp [find?] at hnone
  obtain ⟨b, hb, rfl⟩ := ha.to_origin_dropLast hroot
  rw [resolve_eq]
  exact walk_plain_eq_notFound (hd.plain hsize) (fun b hb => hd.unlinked _ hb.of_origin)
    (fun b hb => hway _ hb.of_origin_dropLast) ⟨b, hb, hnone⟩

/-- A name longer than `nameMax` bytes, at the end of a direct path whose components fit and
name directories, is refused. -/
theorem resolve_direct_append_long (hd : Direct d.host cs)
    (hsize : ∀ c ∈ cs, c.utf8ByteSize ≤ nameMax) (hdirs : ∀ a, Stem a cs → d.find? a = some .dir)
    {c : String} (hlong : nameMax < c.utf8ByteSize) : d.resolve (cs ++ [c]) = .error .nameTooLong := by
  -- `/` and `..` are short names
  have hslash : c ≠ "/" := by
    rintro rfl
    exact absurd hlong (by decide)
  have hparent : c ≠ ".." := by
    rintro rfl
    exact absurd hlong (by decide)
  rw [resolve_eq, origin_append_cons hslash]
  exact walk_plain_append_long hparent hlong (hd.plain hsize)
    (fun b hb => hd.unlinked _ hb.of_origin) fun b hb => hdirs _ hb.of_origin

end Walk

/-! ## Making directories -/

/-- `d'` is `d` with every stem of `cs` a directory and nothing else changed, on the same
host. -/
structure DirsMade (d : Disk) (cs : List String) (d' : Disk) : Prop where
  host : d'.host = d.host
  find? : ∀ p, d'.find? p = if Stem p cs then some .dir else d.find? p

section MakeDir

variable {d d' d₁ d₂ : Disk} {cs : List String}

theorem DirsMade.find?_stem (h : DirsMade d cs d') {a : List String} (ha : Stem a cs) :
    d'.find? a = some .dir := by
  rw [h.find? a, if_pos ha]

/-- Making the parents of `cs`, then `cs` itself, makes the stems of `cs`. -/
theorem DirsMade.trans_dropLast (h₁ : DirsMade d cs.dropLast d₁) (h₂ : DirsMade d₁ cs d₂) :
    DirsMade d cs d₂ := by
  refine ⟨h₂.host.trans h₁.host, fun p => ?_⟩
  rw [h₂.find? p, h₁.find? p]
  by_cases hp : Stem p cs
  · simp only [hp, if_true]
  · have hp' : ¬ Stem p cs.dropLast := fun h => hp h.of_dropLast
    simp only [hp, hp', if_false]

theorem dirsMade_self (hdirs : ∀ a, Stem a cs → d.find? a = some .dir) : DirsMade d cs d := by
  refine ⟨rfl, fun p => ?_⟩
  split_ifs with hp
  · exact hdirs p hp
  · rfl

theorem dirsMade_put (hdirs : ∀ a, Stem a cs.dropLast → d.find? a = some .dir)
    (hnone : d.find? cs = none) : DirsMade d cs (d.put cs .dir) := by
  refine ⟨rfl, fun p => ?_⟩
  rw [find?_put (by simp [hnone])]
  by_cases hp : Stem p cs
  · rw [if_pos hp]
    split_ifs with hpc
    · rfl
    · exact hdirs p ((hp.eq_or_dropLast).resolve_left hpc)
  · have hpc : p ≠ cs := by
      rintro rfl
      exact hp (stem_self (by rintro rfl; simp [find?] at hnone))
    rw [if_neg hp, if_neg hpc]

variable (hd : Direct d.host cs) (hsize : ∀ c ∈ cs, c.utf8ByteSize ≤ nameMax)
include hd hsize

theorem isDir_direct (hdirs : ∀ a, Stem a cs.dropLast → d.find? a = some .dir)
    (hdir : d.find? cs = some .dir) : d.isDir cs = true := by
  unfold isDir
  rw [resolve_direct_eq_ok hd hsize hdirs]
  simp [hdir]

/-- Making the last directory of a direct path whose parents are all directories: a new
directory where nothing was, `alreadyExists` where something is. -/
theorem makeDir_direct (hdirs : ∀ a, Stem a cs.dropLast → d.find? a = some .dir) :
    d.makeDir cs = match d.find? cs with
      | some _ => .error .alreadyExists
      | none => .ok (d.put cs .dir) := by
  unfold makeDir
  simp only [resolve_direct_eq_ok hd hsize hdirs, bind, Except.bind]
  rcases d.find? cs with _ | _ <;> rfl

theorem makeDir_direct_notFound
    (hway : ∀ a, Stem a cs.dropLast → d.find? a = none ∨ d.find? a = some .dir)
    (hmiss : ∃ a, Stem a cs.dropLast ∧ d.find? a = none) : d.makeDir cs = .error .notFound := by
  unfold makeDir
  rw [resolve_direct_eq_notFound hd hsize hway hmiss]
  rfl

/-- The last step of making a direct path whose parents are directories: the directory is made,
or it is there already. -/
theorem makeDir_last (hdirs : ∀ a, Stem a cs.dropLast → d.find? a = some .dir)
    (hlast : d.find? cs = none ∨ d.find? cs = some .dir) :
    (∃ d', d.makeDir cs = .ok d' ∧ DirsMade d cs d') ∨
      (d.makeDir cs = .error .alreadyExists ∧ d.isDir cs = true ∧ DirsMade d cs d) := by
  rw [makeDir_direct hd hsize hdirs]
  rcases hlast with hnone | hdir
  · exact .inl ⟨_, by rw [hnone], dirsMade_put hdirs hnone⟩
  · refine .inr ⟨by rw [hdir], isDir_direct hd hsize hdirs hdir, dirsMade_self fun a ha => ?_⟩
    rcases ha.eq_or_dropLast with rfl | ha'
    · exact hdir
    · exact hdirs a ha'

omit hd hsize in
/-- Making a direct path with its parents, where no stem is a file, makes every stem a directory
and nothing else.  Induction on the depth allowed: a missing parent sends the construction down
to the parents first. -/
theorem createDirsUpTo_direct : ∀ (n : ℕ) {d : Disk} {cs : List String}, cs.length ≤ n →
    Direct d.host cs → (∀ c ∈ cs, c.utf8ByteSize ≤ nameMax) →
    (∀ a, Stem a cs → d.find? a = none ∨ d.find? a = some .dir) →
    ∃ d', d.createDirsUpTo cs n = (d', none) ∧ DirsMade d cs d'
  | 0, d, cs, hlen, _, _, _ => by
    obtain rfl : cs = [] := List.eq_nil_of_length_eq_zero (by omega)
    exact ⟨d, rfl, dirsMade_self fun a ha => absurd ha not_stem_nil⟩
  | n + 1, d, cs, hlen, hd, hsize, hway => by
    by_cases hnil : cs = []
    · subst hnil
      exact ⟨d, rfl, dirsMade_self fun a ha => absurd ha not_stem_nil⟩
    have hempty : cs.isEmpty = false := List.isEmpty_eq_false_iff.2 hnil
    by_cases hall : ∀ a, Stem a cs.dropLast → d.find? a = some .dir
    · rcases makeDir_last hd hsize hall (hway cs (stem_self hnil)) with
        ⟨d', hmk, hmade⟩ | ⟨hmk, hisdir, hmade⟩
      · exact ⟨d', by simp [createDirsUpTo, hempty, hmk], hmade⟩
      · exact ⟨d, by simp [createDirsUpTo, hempty, hmk, hisdir], hmade⟩
    · -- a parent is missing: the parents are made first, then the last directory
      push Not at hall
      obtain ⟨a, ha, hna⟩ := hall
      have hmiss : d.find? a = none := (hway a ha.of_dropLast).resolve_right hna
      have hmk := makeDir_direct_notFound hd hsize (fun b hb => hway b hb.of_dropLast)
        ⟨a, ha, hmiss⟩
      obtain ⟨d₁, hrec, hmade₁⟩ := @createDirsUpTo_direct n d cs.dropLast
        (by rw [List.length_dropLast]; omega) hd.dropLast
        (fun c hc => hsize c (List.dropLast_subset _ hc)) (fun b hb => hway b hb.of_dropLast)
      have hdirs₁ : ∀ b, Stem b cs.dropLast → d₁.find? b = some .dir :=
        fun b hb => hmade₁.find?_stem hb
      have hlast₁ : d₁.find? cs = none ∨ d₁.find? cs = some .dir := by
        rw [hmade₁.find? cs, if_neg not_stem_dropLast_self]
        exact hway cs (stem_self hnil)
      rcases makeDir_last (hmade₁.host ▸ hd) hsize hdirs₁ hlast₁ with
        ⟨d₂, hmk₂, hmade₂⟩ | ⟨hmk₂, hisdir₂, hmade₂⟩
      · exact ⟨d₂, by simp [createDirsUpTo, hempty, hmk, hrec, hmk₂],
          hmade₁.trans_dropLast hmade₂⟩
      · exact ⟨d₁, by simp [createDirsUpTo, hempty, hmk, hrec, hmk₂, hisdir₂],
          hmade₁.trans_dropLast hmade₂⟩

end MakeDir

/-- Making a directory with its parents, along a direct path that fits and of which no stem is a
file, makes every stem a directory and nothing else. -/
theorem createDirAll_direct {d : Disk} {path : String} (hfit : Fits path)
    (hd : Direct d.host (components path))
    (hway : ∀ a, Stem a (components path) → d.find? a = none ∨ d.find? a = some .dir) :
    ∃ d', d.createDirAll path = (d', none) ∧ DirsMade d (components path) d' := by
  unfold createDirAll
  by_cases hnil : components path = []
  · refine ⟨d, by simp [hnil], dirsMade_self fun a ha => ?_⟩
    rw [hnil] at ha
    exact absurd ha not_stem_nil
  · have hempty : (components path).isEmpty = false := List.isEmpty_eq_false_iff.2 hnil
    simp only [hempty, Bool.false_eq_true, if_false, hfit.1]
    exact createDirsUpTo_direct _ le_rfl hd hfit.2 hway

/-! ## Reading and creating files -/

section Files

variable {d : Disk} {path : String}

theorem isEmpty_eq_false_of_components (hne : components path ≠ []) : path.isEmpty = false := by
  rw [Bool.eq_false_iff]
  intro hempty
  rw [String.isEmpty_iff] at hempty
  subst hempty
  exact hne (by simp [components])

/-- What reading a file finds at its place: the bytes of a file, or the error for a directory
or for nothing there. -/
def readNode : Option Node → Except IoError ByteArray
  | some (.file data) => .ok data
  | some .dir => .error .isADirectory
  | none => .error .notFound

/-- A file whose name is longer than `nameMax` bytes, at the end of a direct path whose other
components fit and name directories, has no place. -/
theorem fileSlot_long {cs : List String} {c : String} (hcheck : checkPath path = .ok ())
    (hcs : components path = cs ++ [c]) (hd : Direct d.host cs)
    (hsize : ∀ x ∈ cs, x.utf8ByteSize ≤ nameMax) (hdirs : ∀ a, Stem a cs → d.find? a = some .dir)
    (hlong : nameMax < c.utf8ByteSize) : d.fileSlot path = .error .nameTooLong := by
  unfold fileSlot
  simp only [hcheck, isEmpty_eq_false_of_components (hcs ▸ List.append_ne_nil_of_right_ne_nil cs
    (List.cons_ne_nil c [])), hcs, resolve_direct_append_long hd hsize hdirs hlong, bind,
    Except.bind, Bool.false_eq_true, if_false]

variable (hfit : Fits path) (hd : Direct d.host (components path)) (hne : components path ≠ [])
  (hnd : namesDirectory path = false)
  (hdirs : ∀ a, Stem a (components path).dropLast → d.find? a = some .dir)
include hfit hd hne hnd hdirs

/-- A file along a direct path whose directories are there is read from its own place. -/
theorem readFile_direct : d.readFile path = readNode (d.find? (components path)) := by
  unfold readFile
  simp only [hfit.1, isEmpty_eq_false_of_components hne, resolve_direct_eq_ok hd hfit.2 hdirs,
    bind, Except.bind, Bool.false_eq_true, if_false, hnd]
  rcases d.find? (components path) with _ | _ | _ <;> rfl

/-- A file along a direct path whose directories are there goes to its own place, unless a
directory stands there. -/
theorem fileSlot_direct (hnot : d.find? (components path) ≠ some .dir) :
    d.fileSlot path = .ok (components path) := by
  unfold fileSlot
  simp only [hfit.1, isEmpty_eq_false_of_components hne, resolve_direct_eq_ok hd hfit.2 hdirs,
    bind, Except.bind, Bool.false_eq_true, if_false, hnd]
  rcases hf : d.find? (components path) with _ | _ | _
  · rfl
  · rfl
  · exact absurd hf hnot

end Files

end Disk

end ClusterSweep
