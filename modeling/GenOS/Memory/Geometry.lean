/-
  GenOS.Memory.Geometry — the numbering of managed pages.

  `pagesOf regions` is the list of all managed pages in ascending order.  The
  two lookups of the allocator are inverse to each other on it: page number
  `i` is the address `pagesOf regions` has at position `i`
  (`regionOf_page`, `find_frame`).
-/
import GenOS.Memory.FrameAllocator

namespace GenOS.Memory

open GenOS.Lib List

/-! ## §1. Pages. -/

/-- The pages of one region. -/
def regionPages (r : FrameRegion) : List Nat :=
  (List.range r.frames).map (fun k => r.start + k * pageSize)

/-- All managed pages. -/
def pagesOf (regions : List FrameRegion) : List Nat := regions.flatMap regionPages

structure RegionOk (r : FrameRegion) : Prop where
  startAligned : r.start % pageSize = 0
  stopAligned : r.stop % pageSize = 0
  low : pageSize ≤ r.start
  nonempty : r.start < r.stop
  high : r.stop < 2 ^ 64

/-- The regions are numbered one after the other, from `first` on. -/
def Numbered : Nat → List FrameRegion → Prop
  | _, [] => True
  | first, r :: rest => r.first = first ∧ Numbered (first + r.frames) rest

/-- Well-formed, ascending and disjoint regions. -/
structure Ascending (regions : List FrameRegion) : Prop where
  ok : ∀ r ∈ regions, RegionOk r
  sorted : regions.Pairwise (fun r r' => r.stop ≤ r'.start)

variable {r : FrameRegion} {regions : List FrameRegion}

theorem Ascending.tail {rest : List FrameRegion} (h : Ascending (r :: rest)) :
    Ascending rest :=
  ⟨fun x hx => h.ok x (mem_cons_of_mem _ hx), (pairwise_cons.mp h.sorted).2⟩

@[simp] theorem regionPages_length (r : FrameRegion) : (regionPages r).length = r.frames := by
  simp [regionPages]

@[simp] theorem pagesOf_cons (r : FrameRegion) (rest : List FrameRegion) :
    pagesOf (r :: rest) = regionPages r ++ pagesOf rest := by
  simp [pagesOf]

/-- The pages of a region fill it exactly. -/
theorem RegionOk.stop_eq (h : RegionOk r) :
    r.stop = r.start + r.frames * pageSize := by
  have h1 := h.startAligned
  have h2 := h.stopAligned
  have h3 := h.nonempty
  unfold FrameRegion.frames pageSize at *
  omega

theorem mem_regionPages (h : RegionOk r) {f : Nat} :
    f ∈ regionPages r ↔ f % pageSize = 0 ∧ r.start ≤ f ∧ f < r.stop := by
  have hstart := h.startAligned
  have hstop := h.stop_eq
  unfold regionPages
  rw [mem_map]
  unfold pageSize at *
  constructor
  · rintro ⟨k, hk, rfl⟩
    rw [mem_range] at hk
    omega
  · rintro ⟨hf, h1, h2⟩
    exact ⟨(f - r.start) / 4096, mem_range.mpr (by omega), by omega⟩

theorem mem_pagesOf (h : ∀ r ∈ regions, RegionOk r) {f : Nat} :
    f ∈ pagesOf regions ↔ f % pageSize = 0 ∧ ∃ r ∈ regions, r.start ≤ f ∧ f < r.stop := by
  unfold pagesOf
  rw [mem_flatMap]
  constructor
  · rintro ⟨r, hr, hf⟩
    obtain ⟨h1, h2⟩ := (mem_regionPages (h r hr)).mp hf
    exact ⟨h1, r, hr, h2⟩
  · rintro ⟨h1, r, hr, h2⟩
    exact ⟨r, hr, (mem_regionPages (h r hr)).mpr ⟨h1, h2⟩⟩

/-- The pages are listed in ascending order. -/
theorem pagesOf_ascending (h : Ascending regions) :
    (pagesOf regions).Pairwise (· < ·) := by
  induction regions with
  | nil => exact List.Pairwise.nil
  | cons r rest ih =>
    have hr := h.ok r mem_cons_self
    rw [pagesOf_cons, pairwise_append]
    refine ⟨?_, ih h.tail, ?_⟩
    · unfold regionPages
      rw [pairwise_map]
      refine pairwise_lt_range.imp (fun {a b} hab => ?_)
      unfold pageSize
      omega
    · intro x hx y hy
      obtain ⟨-, -, hxr⟩ := (mem_regionPages hr).mp hx
      obtain ⟨-, r', hr', hy1, -⟩ := (mem_pagesOf h.tail.ok).mp hy
      have := (pairwise_cons.mp h.sorted).1 r' hr'
      omega

theorem pagesOf_nodup (h : Ascending regions) :
    (pagesOf regions).Nodup :=
  (pagesOf_ascending h).imp (fun hab => Nat.ne_of_lt hab)

/-! ## §2. Lookups. -/

theorem regionPages_getElem? {k : Nat} (hk : k < r.frames) :
    (regionPages r)[k]? = some (r.start + k * pageSize) := by
  simp [regionPages, getElem?_range hk]

/-- The region found for a page number leads to the page of that number. -/
theorem find_index :
    ∀ {first index : Nat}, Numbered first regions → first ≤ index →
      index < first + (pagesOf regions).length →
      ∃ r, regions.find? (fun r => decide (r.first ≤ index)
          && decide (index - r.first < r.frames)) = some r
        ∧ (pagesOf regions)[index - first]? = some (r.start + (index - r.first) * pageSize) := by
  induction regions with
  | nil =>
    intro first index _ hge hlt
    simp only [pagesOf, flatMap_nil, length_nil] at hlt
    omega
  | cons r rest ih =>
    intro first index hnum hge hlt
    obtain ⟨hfirst, hrest⟩ := hnum
    rw [pagesOf_cons, length_append, regionPages_length] at hlt
    by_cases hhere : index - first < r.frames
    · refine ⟨r, ?_, ?_⟩
      · rw [find?_cons_of_pos]
        simp only [hfirst, Bool.and_eq_true, decide_eq_true_eq]
        exact ⟨hge, hhere⟩
      · rw [pagesOf_cons, getElem?_append_left (by rw [regionPages_length]; exact hhere),
          regionPages_getElem? hhere, hfirst]
    · have hge' : first + r.frames ≤ index := by omega
      have hlt' : index < first + r.frames + (pagesOf rest).length := by omega
      obtain ⟨r', hfind, hpage⟩ := ih hrest hge' hlt'
      refine ⟨r', ?_, ?_⟩
      · rw [find?_cons_of_neg, hfind]
        simp only [hfirst, Bool.and_eq_true, decide_eq_true_eq, not_and]
        exact fun _ => hhere
      · rw [pagesOf_cons, getElem?_append_right (by rw [regionPages_length]; omega),
          regionPages_length, Nat.sub_sub]
        exact hpage

/-- The region found for a managed page leads to its number. -/
theorem find_frame :
    ∀ {first i f : Nat}, Numbered first regions → Ascending regions →
      (pagesOf regions)[i]? = some f →
      ∃ r, regions.find? (fun r => decide (r.start ≤ f) && decide (f < r.stop)) = some r
        ∧ r.first + (f - r.start) / pageSize = first + i := by
  induction regions with
  | nil =>
    intro first i f _ _ h
    simp [pagesOf] at h
  | cons r rest ih =>
    intro first i f hnum hasc h
    obtain ⟨hfirst, hrest⟩ := hnum
    have hr := hasc.ok r mem_cons_self
    rw [pagesOf_cons] at h
    by_cases hi : i < r.frames
    · rw [getElem?_append_left (by rw [regionPages_length]; exact hi),
        regionPages_getElem? hi, Option.some.injEq] at h
      have hstop := hr.stop_eq
      have hmul : i * pageSize < r.frames * pageSize :=
        Nat.mul_lt_mul_of_pos_right hi (by decide)
      refine ⟨r, ?_, ?_⟩
      · rw [find?_cons_of_pos]
        simp only [Bool.and_eq_true, decide_eq_true_eq]
        omega
      · rw [hfirst, ← h, Nat.add_sub_cancel_left, Nat.mul_div_cancel _ (by decide)]
    · rw [getElem?_append_right (by rw [regionPages_length]; omega),
        regionPages_length] at h
      obtain ⟨r', hfind, hnumber⟩ := ih hrest hasc.tail h
      -- the page lies behind this region
      have hmem := mem_of_find?_eq_some hfind
      have hrange := find?_some hfind
      simp only [Bool.and_eq_true, decide_eq_true_eq] at hrange
      have hbehind := (pairwise_cons.mp hasc.sorted).1 r' hmem
      refine ⟨r', ?_, by omega⟩
      rw [find?_cons_of_neg, hfind]
      simp only [Bool.and_eq_true, decide_eq_true_eq, not_and]
      omega

end GenOS.Memory
