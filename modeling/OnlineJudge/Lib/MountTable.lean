import Mathlib.Data.List.TakeWhile

/-!
# Mount tables

What the paths of a mount namespace lead to, and what the calls that change its
mounts do to them. A path is the list of names from the root down, with no
symbolic link in it; a mount shows a directory of some volume at its mount point.

* `MountTable.shown`: what a path leads to;
* `shown_mount`, `shown_graft`: below a mount, and below a recursive bind mount;
* `shown_bindAll_self`: a directory bound to itself shows what it did;
* `shown_of_switched`: after the root is exchanged and the old one detached,
  nothing but the new root can be reached.
-/

/-- A place in a volume, and whether it is shown read-only. -/
structure Shown (N V : Type) where
  volume : V
  path : List N
  readOnly : Bool := false
  deriving DecidableEq

namespace Shown

variable {N V : Type}

/-- The place with these names below it. -/
def under (s : Shown N V) (names : List N) : Shown N V := { s with path := s.path ++ names }

def asReadOnly (s : Shown N V) : Shown N V := { s with readOnly := true }

@[simp] theorem under_nil (s : Shown N V) : s.under [] = s := by simp [under]

@[simp] theorem under_under (s : Shown N V) (names names' : List N) :
    (s.under names).under names' = s.under (names ++ names') := by simp [under]

end Shown

structure Mount (N V : Type) where
  point : List N
  target : Shown N V
  deriving DecidableEq

/-- The mounts of a namespace, the latest first, over the mount that is its root. -/
structure MountTable (N V : Type) where
  root : Shown N V
  mounts : List (Mount N V) := []
  deriving DecidableEq

namespace Mount

/-- A mount below `src` as one below `dst`. -/
def moved {N V : Type} (src dst : List N) (m : Mount N V) : Mount N V :=
  { m with point := dst ++ m.point.drop src.length }

variable {N V : Type} [DecidableEq N] {m : Mount N V} {p d r : List N}

/-- The path lies in this mount, unless a later one hides it. A lookup starts in
the root directory itself, so a mount on it is not met. -/
def covers (m : Mount N V) (p : List N) : Bool := m.point ≠ [] ∧ m.point <+: p

theorem covers_iff : m.covers p = true ↔ m.point ≠ [] ∧ m.point <+: p := by
  rw [covers, decide_eq_true_eq]

theorem covers_point (h : m.point ≠ []) : m.covers m.point = true := by
  rw [covers_iff]
  exact ⟨h, List.prefix_rfl⟩

theorem covers_append (h : m.covers p = true) : m.covers (p ++ r) = true := by
  rw [covers_iff] at h ⊢
  exact ⟨h.1, h.2.trans (List.prefix_append p r)⟩

/-- A mount below a directory is in it, or holds it. -/
theorem covers_append_iff :
    m.covers (d ++ r) = true ↔
      m.covers d = true ∨ m.point ≠ [] ∧ ∃ x, x <+: r ∧ m.point = d ++ x := by
  rw [covers_iff, covers_iff]
  constructor
  · rintro ⟨hne, hp⟩
    rcases List.prefix_or_prefix_of_prefix hp (List.prefix_append d r) with h | ⟨x, hx⟩
    · exact .inl ⟨hne, h⟩
    · refine .inr ⟨hne, x, ?_, hx.symm⟩
      rwa [← hx, List.prefix_append_right_inj] at hp
  · rintro (⟨hne, hp⟩ | ⟨hne, x, hx, heq⟩)
    · exact ⟨hne, hp.trans (List.prefix_append d r)⟩
    · refine ⟨hne, ?_⟩
      rwa [heq, List.prefix_append_right_inj]

end Mount

namespace MountTable

variable {N V : Type} [DecidableEq N]

section
variable (t : MountTable N V)

/-- The mount that a path lies in, if it is not the root. -/
def cover (p : List N) : Option (Mount N V) := t.mounts.find? (·.covers p)

def shown (p : List N) : Shown N V :=
  match t.cover p with
  | some m => m.target.under (p.drop m.point.length)
  | none => t.root.under p

/-- Where the mount that a path lies in is mounted. -/
def mountPoint (p : List N) : List N :=
  match t.cover p with
  | some m => m.point
  | none => []

def isMountPoint (p : List N) : Bool := t.mountPoint p = p

/-- The later mounts below a directory: those that a recursive bind mount copies. -/
def inner (d : List N) : List (Mount N V) :=
  (t.mounts.takeWhile fun m => !m.covers d).filter (d <+: ·.point)

/-- The rest of the mounts above the one that the directory lies in. -/
def outer (d : List N) : List (Mount N V) :=
  (t.mounts.takeWhile fun m => !m.covers d).filter (¬ d <+: ·.point)

end

/-! ## Calls -/

section
variable (t : MountTable N V)

/-- `mount` of a volume. -/
def mount (dst : List N) (s : Shown N V) : MountTable N V :=
  { t with mounts := ⟨dst, s⟩ :: t.mounts }

/-- `mount` with `MS_BIND`. -/
def bind (src dst : List N) : MountTable N V := t.mount dst (t.shown src)

/-- The directory `s` at `dst`, with copies of the mounts below `src`. -/
def graft (src dst : List N) (s : Shown N V) : MountTable N V :=
  { t with mounts := (t.inner src).map (Mount.moved src dst) ++ ⟨dst, s⟩ :: t.mounts }

/-- `mount` with `MS_BIND | MS_REC`. -/
def bindAll (src dst : List N) : MountTable N V := t.graft src dst (t.shown src)

end

/-- The mount at `d` made read-only; it has to be a mount point. -/
def remounted (d : List N) : List (Mount N V) → List (Mount N V)
  | [] => []
  | m :: mounts =>
    if m.covers d then
      (if m.point = d then { m with target := m.target.asReadOnly } else m) :: mounts
    else m :: remounted d mounts

/-- The mount at `d` and the mounts below it taken away. -/
def detached (d : List N) : List (Mount N V) → Option (List (Mount N V))
  | [] => none
  | m :: mounts =>
    if m.covers d then if m.point = d then some mounts else none
    else (detached d mounts).map fun rest => if d <+: m.point then rest else m :: rest

section
variable (t : MountTable N V)

/-- `mount` with `MS_BIND | MS_REMOUNT | MS_RDONLY`: only this mount changes, not
those below it. -/
def remountReadOnly (d : List N) : MountTable N V := { t with mounts := remounted d t.mounts }

/-- `umount2` with `MNT_DETACH`. -/
def detach (d : List N) : Option (MountTable N V) :=
  (detached d t.mounts).map fun mounts => { t with mounts }

/-- `pivot_root`: the mount at `new_root` becomes the root, and the root, with
all that is not below `new_root`, is mounted at `put_old`. -/
def pivotRoot (new_root put_old : List N) : Option (MountTable N V) :=
  match t.mounts.dropWhile fun m => !m.covers new_root with
  | [] => none
  | m :: below =>
    if m.point = new_root ∧ new_root <+: put_old then
      let out := put_old.drop new_root.length
      some {
        root := m.target
        mounts := (t.outer new_root ++ below).map (Mount.moved [] out) ++
          ⟨out, t.root⟩ :: (t.inner new_root).map (Mount.moved new_root []) }
    else none

end

/-! ## Lookups -/

variable {t t₁ t₂ : MountTable N V} {m : Mount N V} {s : Shown N V} {l : List (Mount N V)}
  {src dst d p r out new_root : List N}

omit [DecidableEq N] in
theorem not_append_below (hr : r ≠ []) : ¬ d ++ r <+: d := by
  intro h
  have hle := h.length_le
  rw [List.length_append] at hle
  exact hr (List.length_eq_zero_iff.1 (by omega))

theorem find?_covers_append (l : List (Mount N V)) (d r : List N) :
    l.find? (·.covers (d ++ r)) =
      (((l.takeWhile fun m => !m.covers d).filter (d <+: ·.point)).find? (·.covers (d ++ r))).or
        (l.find? (·.covers d)) := by
  induction l with
  | nil => rfl
  | cons m l ih =>
    by_cases hd : m.covers d = true
    · rw [List.takeWhile_cons_of_neg (by simp [hd])]
      simp only [List.find?_cons, hd, Mount.covers_append hd]
      rfl
    · rw [List.takeWhile_cons_of_pos (by simp [hd])]
      simp only [Bool.not_eq_true] at hd
      by_cases hin : d <+: m.point
      · rw [List.filter_cons_of_pos (by simpa using hin)]
        by_cases hc : m.covers (d ++ r) = true
        · simp only [List.find?_cons, hc]
          rfl
        · simp only [Bool.not_eq_true] at hc
          simp only [List.find?_cons, hc, hd, ih]
      · have hc : m.covers (d ++ r) = false := by
          rw [← Bool.not_eq_true, Mount.covers_append_iff]
          rintro (h | ⟨-, x, -, h⟩)
          · simp [hd] at h
          · exact hin (h ▸ List.prefix_append d x)
        rw [List.filter_cons_of_neg (by simpa using hin)]
        simp only [List.find?_cons, hc, hd, ih]

/-- A path below `d` lies in a later mount below `d`, or where `d` does. -/
theorem cover_append (d r : List N) :
    t.cover (d ++ r) = ((t.inner d).find? (·.covers (d ++ r))).or (t.cover d) :=
  find?_covers_append t.mounts d r

theorem cover_some (h : t.cover p = some m) : m.covers p = true := by
  simpa using List.find?_some h

theorem not_covers_of_mem_inner (h : m ∈ t.inner d) : ¬ m.covers d = true := by
  have hall := List.mem_takeWhile_imp (List.mem_filter.1 h).1
  simpa using hall

theorem point_of_mem_inner (hd : d ≠ []) (h : m ∈ t.inner d) :
    ∃ x, x ≠ [] ∧ m.point = d ++ x := by
  have hin : d <+: m.point := by simpa using (List.mem_filter.1 h).2
  obtain ⟨x, hx⟩ := hin
  refine ⟨x, ?_, hx.symm⟩
  rintro rfl
  rw [List.append_nil] at hx
  apply not_covers_of_mem_inner h
  rw [Mount.covers_iff, ← hx]
  exact ⟨hd, List.prefix_rfl⟩

theorem find?_moved (hl : ∀ m ∈ l, ∃ x, x ≠ [] ∧ m.point = src ++ x) (dst r : List N) :
    (l.map (Mount.moved src dst)).find? (·.covers (dst ++ r)) =
      (l.find? (·.covers (src ++ r))).map (Mount.moved src dst) := by
  induction l with
  | nil => rfl
  | cons m l ih =>
    obtain ⟨x, hx, hpoint⟩ := hl m List.mem_cons_self
    have hsame : (m.moved src dst).covers (dst ++ r) = m.covers (src ++ r) := by
      rw [Bool.eq_iff_iff, Mount.covers_iff, Mount.covers_iff]
      simp [Mount.moved, hpoint, hx, List.prefix_append_right_inj]
    have ih := ih fun m hm => hl m (List.mem_cons_of_mem _ hm)
    rw [List.map_cons]
    by_cases hc : m.covers (src ++ r) = true
    · simp only [List.find?_cons, hsame, hc]
      rfl
    · simp only [Bool.not_eq_true] at hc
      simp only [List.find?_cons, hsame, hc, ih]

omit [DecidableEq N] in
theorem under_moved {x : List N} (h : m.point = src ++ x) (dst r : List N) :
    (m.moved src dst).target.under ((dst ++ r).drop (m.moved src dst).point.length) =
      m.target.under ((src ++ r).drop m.point.length) := by
  have hdrop (d : List N) : (d ++ r).drop (d ++ x).length = r.drop x.length := by
    rw [List.length_append, ← List.drop_drop, List.drop_left]
  have hpoint : (m.moved src dst).point = dst ++ x := by simp [Mount.moved, h]
  rw [hpoint, h, hdrop, hdrop]
  rfl

/-- Paths below `d` in the same mount as `d` are shown in the directory shown at `d`. -/
theorem cover_of_mountPoint (h : t.mountPoint (d ++ r) <+: d) : t.cover (d ++ r) = t.cover d := by
  have hcover := t.cover_append (d := d) (r := r)
  cases hin : (t.inner d).find? (·.covers (d ++ r)) with
  | none => rw [hcover, hin, Option.none_or]
  | some m =>
    rw [hin, Option.some_or] at hcover
    have hpoint : m.point <+: d := by simpa [mountPoint, hcover] using h
    refine absurd ?_ (not_covers_of_mem_inner (List.mem_of_find?_eq_some hin))
    rw [Mount.covers_iff]
    exact ⟨(Mount.covers_iff.1 (cover_some hcover)).1, hpoint⟩

theorem shown_of_mountPoint (h : t.mountPoint (d ++ r) <+: d) :
    t.shown (d ++ r) = (t.shown d).under r := by
  unfold shown
  rw [cover_of_mountPoint h]
  cases hc : t.cover d with
  | none => simp
  | some m =>
    have hle := (Mount.covers_iff.1 (cover_some hc)).2.length_le
    simp [List.drop_append_of_le_length hle]

/-! ## Bind mounts -/

theorem cover_mount_outside (h : ¬ dst <+: p) : (t.mount dst s).cover p = t.cover p := by
  have hc : (Mount.mk dst s).covers p = false := by
    rw [← Bool.not_eq_true, Mount.covers_iff]
    exact fun hc => h hc.2
  simp only [cover, mount, List.find?_cons, hc]

theorem shown_mount (hdst : dst ≠ []) (r : List N) :
    (t.mount dst s).shown (dst ++ r) = s.under r := by
  have hc : (Mount.mk dst s).covers (dst ++ r) = true :=
    Mount.covers_append (Mount.covers_point hdst)
  simp only [shown, cover, mount, List.find?_cons, hc, List.drop_left]

theorem cover_graft_outside (h : ¬ dst <+: p) :
    (t.graft src dst s).cover p = t.cover p := by
  have hnone : ((t.inner src).map (Mount.moved src dst)).find? (·.covers p) = none := by
    rw [List.find?_eq_none]
    intro m hm
    obtain ⟨m, -, rfl⟩ := List.mem_map.1 hm
    rw [Mount.covers_iff]
    exact fun hc => h ((List.prefix_append dst _).trans hc.2)
  have hmount := cover_mount_outside (t := t) (s := s) h
  rw [cover, graft, List.find?_append, hnone, Option.none_or]
  exact hmount

/-- A grafted directory shows what the original does, but for the directory at the
top of it, in whose place there is `s`. -/
theorem shown_graft (hsrc : src ≠ []) (hdst : dst ≠ []) (r : List N) :
    (t.graft src dst s).shown (dst ++ r) =
      if t.mountPoint (src ++ r) <+: src then s.under r else t.shown (src ++ r) := by
  have hmoved := find?_moved (l := t.inner src)
    (fun m hm => point_of_mem_inner hsrc hm) dst r
  have hcover : (t.graft src dst s).cover (dst ++ r) =
      (((t.inner src).find? (·.covers (src ++ r))).map (Mount.moved src dst)).or
        ((t.mount dst s).cover (dst ++ r)) := by
    rw [cover, graft, List.find?_append, hmoved]
    rfl
  cases hin : (t.inner src).find? (·.covers (src ++ r)) with
  | none =>
    rw [hin, Option.map_none, Option.none_or] at hcover
    have hsame : t.cover (src ++ r) = t.cover src := by
      rw [cover_append, hin, Option.none_or]
    rw [if_pos]
    · rw [shown, hcover]
      exact shown_mount hdst r
    · rw [mountPoint, hsame]
      cases hc : t.cover src with
      | none => exact List.nil_prefix
      | some m => exact (Mount.covers_iff.1 (cover_some hc)).2
  | some m =>
    rw [hin, Option.map_some, Option.some_or] at hcover
    have hsome : t.cover (src ++ r) = some m := by rw [cover_append, hin, Option.some_or]
    obtain ⟨x, hx, hpoint⟩ := point_of_mem_inner hsrc (List.mem_of_find?_eq_some hin)
    rw [if_neg]
    · simp only [shown, hcover, hsome]
      exact under_moved hpoint dst r
    · have hmount : t.mountPoint (src ++ r) = src ++ x := by simp [mountPoint, hsome, hpoint]
      rw [hmount]
      exact not_append_below hx

theorem shown_bindAll (hsrc : src ≠ []) (hdst : dst ≠ []) (r : List N) :
    (t.bindAll src dst).shown (dst ++ r) = t.shown (src ++ r) := by
  rw [bindAll, shown_graft hsrc hdst]
  split
  · rename_i h
    exact (shown_of_mountPoint h).symm
  · rfl

theorem shown_of_cover (hroot : t₁.root = t.root) (h : t₁.cover p = t.cover p) :
    t₁.shown p = t.shown p := by
  rw [shown, shown, h, hroot]

theorem mountPoint_of_cover (h : t₁.cover p = t.cover p) : t₁.mountPoint p = t.mountPoint p := by
  rw [mountPoint, mountPoint, h]

/-- A directory bound to itself is a mount point that shows what it did. -/
theorem shown_bindAll_self (hd : d ≠ []) (p : List N) : (t.bindAll d d).shown p = t.shown p := by
  by_cases h : d <+: p
  · obtain ⟨r, rfl⟩ := h
    exact shown_bindAll hd hd r
  · exact shown_of_cover rfl (cover_graft_outside h)

/-! ## Read-only mounts -/

theorem remounted_append (hl : ∀ m ∈ l, ¬ m.covers d = true) (hd : d ≠ [])
    (l' : List (Mount N V)) :
    remounted d (l ++ ⟨d, s⟩ :: l') = l ++ ⟨d, s.asReadOnly⟩ :: l' := by
  induction l with
  | nil =>
    have hc : (Mount.mk d s).covers d = true := Mount.covers_point hd
    simp [remounted, hc]
  | cons m l ih =>
    have hm := hl m List.mem_cons_self
    rw [List.cons_append, remounted, if_neg hm, ih fun m hm => hl m (List.mem_cons_of_mem _ hm)]
    rfl

theorem remountReadOnly_mount (hdst : dst ≠ []) :
    (t.mount dst s).remountReadOnly dst = t.mount dst s.asReadOnly := by
  have h := remounted_append (l := []) (s := s) (by simp) hdst t.mounts
  rw [List.nil_append] at h
  simp only [remountReadOnly, mount, h]
  rfl

theorem remountReadOnly_graft (hsrc : src ≠ []) (hdst : dst ≠ []) :
    (t.graft src dst s).remountReadOnly dst = t.graft src dst s.asReadOnly := by
  have hnot : ∀ m ∈ (t.inner src).map (Mount.moved src dst), ¬ m.covers dst = true := by
    intro m hm
    obtain ⟨m', hm', rfl⟩ := List.mem_map.1 hm
    obtain ⟨x, hx, hpoint⟩ := point_of_mem_inner hsrc hm'
    rw [Mount.covers_iff, Mount.moved, hpoint, List.drop_left]
    exact fun hc => not_append_below hx hc.2
  simp only [remountReadOnly, graft, remounted_append hnot hdst]

/-! ## A new root -/

/-- Detaching the old root takes it away, or a mount on top of it. -/
theorem detached_moved (hout : out ≠ []) (l inside : List (Mount N V)) :
    detached out (l.map (Mount.moved [] out) ++ ⟨out, s⟩ :: inside) = some inside ∨
    ∃ l' : List (Mount N V), detached out (l.map (Mount.moved [] out) ++ ⟨out, s⟩ :: inside) =
      some (l'.map (Mount.moved [] out) ++ ⟨out, s⟩ :: inside) := by
  induction l with
  | nil =>
    have hc : (Mount.mk out s).covers out = true := Mount.covers_point hout
    exact .inl (by simp [detached, hc])
  | cons m l ih =>
    have hpoint : (m.moved [] out).point = out ++ m.point := rfl
    rw [List.map_cons, List.cons_append]
    by_cases hm : m.point = []
    · have hc : (m.moved [] out).covers out = true := by
        rw [Mount.covers_iff, hpoint, hm, List.append_nil]
        exact ⟨hout, List.prefix_rfl⟩
      exact .inr ⟨l, by rw [detached, if_pos hc, if_pos (by rw [hpoint, hm, List.append_nil])]⟩
    · have hc : ¬ (m.moved [] out).covers out = true := by
        rw [Mount.covers_iff, hpoint]
        exact fun hc => not_append_below hm hc.2
      have hin : out <+: (m.moved [] out).point := List.prefix_append out m.point
      rw [detached, if_neg hc]
      rcases ih with h | ⟨l', h⟩
      · exact .inl (by rw [h, Option.map_some, if_pos hin])
      · exact .inr ⟨l', by rw [h, Option.map_some, if_pos hin]⟩

/-- The old root is still there as long as its directory is a mount point. -/
theorem isMountPoint_moved (hout : out ≠ []) (root s : Shown N V)
    (l inside : List (Mount N V)) :
    isMountPoint ⟨root, l.map (Mount.moved [] out) ++ ⟨out, s⟩ :: inside⟩ out = true := by
  suffices h : ∃ m, List.find? (·.covers out)
      (l.map (Mount.moved [] out) ++ ⟨out, s⟩ :: inside) = some m ∧ m.point = out by
    obtain ⟨m, hm, hpoint⟩ := h
    simp [isMountPoint, mountPoint, cover, hm, hpoint]
  induction l with
  | nil =>
    have hc : (Mount.mk out s).covers out = true := Mount.covers_point hout
    refine ⟨⟨out, s⟩, ?_, rfl⟩
    simp only [List.map_nil, List.nil_append, List.find?_cons, hc]
  | cons m l ih =>
    rw [List.map_cons, List.cons_append, List.find?_cons]
    cases hc : (m.moved [] out).covers out with
    | false => exact ih
    | true =>
      have hle := (Mount.covers_iff.1 hc).2
      exact ⟨_, rfl, hle.eq_of_length_le (by simp [Mount.moved])⟩

/-- Once the root is exchanged, and the directory of the old one is a directory
again, every path leads where it led below the new root. -/
theorem shown_of_switched (hout : out ≠ []) (hp : t.pivotRoot new_root (new_root ++ out) = some t₁)
    (hd : t₁.detach out = some t₂) (hfree : t₂.isMountPoint out = false) (p : List N) :
    t₂.shown p = t.shown (new_root ++ p) := by
  simp only [pivotRoot] at hp
  split at hp
  · cases hp
  · rename_i m below hdrop
    split at hp
    · rename_i hnew
      cases hp
      obtain ⟨mounts, hmounts, rfl⟩ := Option.map_eq_some_iff.1 hd
      simp only [List.drop_left] at hmounts
      rcases detached_moved hout (t.outer new_root ++ below)
        ((t.inner new_root).map (Mount.moved new_root [])) with h | ⟨l, h⟩
      · obtain rfl := Option.some.inj (h.symm.trans hmounts)
        have hcover : t.cover new_root = some m := by
          rw [cover, List.find?_eq_head?_dropWhile_not, hdrop]
          rfl
        have hc := cover_some hcover
        have hne : new_root ≠ [] := fun h => (Mount.covers_iff.1 hc).1 (hnew.1.trans h)
        have hmoved := find?_moved (l := t.inner new_root)
          (fun m hm => point_of_mem_inner hne hm) [] p
        rw [List.nil_append] at hmoved
        rw [shown, shown, cover, hmoved, cover_append, hcover]
        cases hin : (t.inner new_root).find? (·.covers (new_root ++ p)) with
        | none =>
          rw [Option.map_none, Option.none_or]
          simp [hnew.1]
        | some m' =>
          obtain ⟨x, -, hpoint⟩ := point_of_mem_inner hne (List.mem_of_find?_eq_some hin)
          rw [Option.map_some, Option.some_or]
          exact under_moved hpoint [] p
      · obtain rfl := Option.some.inj (h.symm.trans hmounts)
        rw [isMountPoint_moved hout] at hfree
        cases hfree
    · cases hp

end MountTable
