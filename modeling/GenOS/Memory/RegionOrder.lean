/-
  GenOS.Memory.RegionOrder — the layout does not depend on the order of the map.

  A region contributes a range of whole pages, nothing, or is malformed.  Two
  contributions commute: adding one and then the other is accepted exactly when
  the other order is, and leaves the same allocator (`offer_comm`), because the
  sorted and numbered list of ranges is determined by the ranges alone
  (`regions_unique`).  Permuted maps follow by induction on the permutation.
-/
import GenOS.Memory.FrameSets

namespace GenOS.Memory

open GenOS.Lib FrameAllocator List

/-! ## §1. Contributions. -/

/-- What a region of the firmware map adds. -/
inductive Contribution where
  /-- The end of the region is no address. -/
  | malformed
  | nothing
  | pages (r : FrameRegion)

/-- The whole pages of a region. -/
def MemoryRegion.contribution (region : MemoryRegion) : Contribution :=
  if region.kind ≠ .usable then .nothing
  else if 2 ^ 64 ≤ region.start.toNat + region.size.toNat then .malformed
  else if alignDown (region.start.toNat + region.size.toNat)
      ≤ alignUp (max region.start.toNat pageSize) then .nothing
  else .pages ⟨alignUp (max region.start.toNat pageSize),
    alignDown (region.start.toNat + region.size.toNat), 0⟩

variable {c : Contribution}

section Offers

variable {words : Nat} {a b : FrameAllocator words} {r r' : FrameRegion}

/-- A range is accepted: there is a free descriptor, the bitmap is long enough
and no managed region is touched. -/
structure Room (a : FrameAllocator words) (r : FrameRegion) : Prop where
  descriptor : a.regions.length ≠ maxUsableRegions
  capacity : a.frameCount + r.frames ≤ words * 64
  disjoint : ∀ x ∈ a.regions, ¬ (r.start < x.stop ∧ x.start < r.stop)

/-- The allocator with one more range. -/
def withRange (a : FrameAllocator words) (r : FrameRegion) : FrameAllocator words :=
  { a with
    regions := FrameAllocator.renumber 0 (FrameAllocator.insertRegion a.regions r)
    frameCount := a.frameCount + r.frames
    nextWord := 0 }

/-- The allocator after a contribution that is accepted. -/
inductive Offered (a : FrameAllocator words) : Contribution → FrameAllocator words → Prop
  | nothing : Offered a .nothing a
  | pages {r : FrameRegion} (hroom : Room a r) : Offered a (.pages r) (withRange a r)

/-- `add_region` before the first allocation: accepted as the contribution says,
or refused without a change. -/
theorem addRegion_offer (hfresh : a.started = false) (region : MemoryRegion) :
    (∃ b, a.addRegion region = (b, true) ∧ Offered a region.contribution b)
      ∨ a.addRegion region = (a, false) ∧ ∀ b, ¬ Offered a region.contribution b := by
  have hopen : ¬ a.started = true := Bool.eq_false_iff.mp hfresh
  unfold addRegion MemoryRegion.contribution
  by_cases hkind : region.kind ≠ .usable
  · rw [if_pos hkind, if_pos hkind]
    exact .inl ⟨a, rfl, .nothing⟩
  rw [if_neg hkind, if_neg hkind, if_neg hopen]
  dsimp only
  by_cases hend : 2 ^ 64 ≤ region.start.toNat + region.size.toNat
  · rw [if_pos hend, if_pos hend]
    exact .inr ⟨rfl, fun b hb => by cases hb⟩
  rw [if_neg hend, if_neg hend]
  by_cases hempty : alignDown (region.start.toNat + region.size.toNat)
      ≤ alignUp (max region.start.toNat pageSize)
  · rw [if_pos hempty, if_pos hempty]
    exact .inl ⟨a, rfl, .nothing⟩
  rw [if_neg hempty, if_neg hempty]
  split
  · rename_i hfull
    refine .inr ⟨rfl, fun b hb => ?_⟩
    cases hb with
    | pages hroom =>
      rcases hfull with hfull | hfull | hfull
      · exact hroom.descriptor hfull
      · exact Nat.not_lt.mpr hroom.capacity hfull
      simp only [overlaps, any_eq_true, Bool.and_eq_true,
        decide_eq_true_eq] at hfull
      obtain ⟨x, hx, htouch⟩ := hfull
      exact hroom.disjoint x hx htouch
  · rename_i hroom
    simp only [not_or, overlaps, any_eq_true, Bool.and_eq_true,
      decide_eq_true_eq] at hroom
    exact .inl ⟨_, rfl, .pages ⟨hroom.1, Nat.le_of_not_lt hroom.2.1,
      fun x hx htouch => hroom.2.2 ⟨x, hx, htouch⟩⟩⟩

/-- A refused region leaves the allocator unchanged. -/
theorem addRegion_refused (a : FrameAllocator words) (region : MemoryRegion)
    (h : (a.addRegion region).2 = false) : (a.addRegion region).1 = a := by
  cases hstarted : a.started with
  | true => exact (addRegion_frozen a region).resolve_right (by rw [hstarted]; exact Bool.noConfusion)
  | false =>
    rcases addRegion_offer hstarted region with ⟨b, hval, _⟩ | ⟨hval, _⟩
    · rw [hval] at h
      cases h
    · rw [hval]

/-- The ranges that a region of the map contributes are well formed. -/
theorem contribution_ok {region : MemoryRegion} (h : region.contribution = .pages r) :
    RegionOk r := by
  unfold MemoryRegion.contribution at h
  split at h
  · cases h
  split at h
  · cases h
  rename_i hend
  split at h
  · cases h
  rename_i hpages
  cases h
  exact regionOk_rounded (Nat.lt_of_not_le hend) (Nat.lt_of_not_le hpages)

theorem Offered.started (h : Offered a c b) : b.started = a.started := by
  cases h <;> rfl

theorem Offered.unique {b' : FrameAllocator words} (h : Offered a c b) (h' : Offered a c b') : b = b' := by
  cases h <;> cases h' <;> rfl

/-! ## §2. Two contributions commute. -/

/-- The boundaries of the managed ranges. -/
def bounds (regions : List FrameRegion) : List (Nat × Nat) :=
  regions.map fun x => (x.start, x.stop)

theorem bounds_renumber (regions : List FrameRegion) (first : Nat) :
    bounds (renumber first regions) = bounds regions := by
  induction regions generalizing first with
  | nil => rfl
  | cons x rest ih => exact congrArg ((x.start, x.stop) :: ·) (ih (first + x.frames))

theorem bounds_withRange (a : FrameAllocator words) (r : FrameRegion) :
    (bounds (withRange a r).regions).Perm ((r.start, r.stop) :: bounds a.regions) := by
  show (bounds (renumber 0 _)).Perm _
  rw [bounds_renumber]
  exact insertRegion_perm.map _

/-- Ascending ranges are in the order of their boundaries. -/
theorem Ascending.bounds_sorted {regions : List FrameRegion} (h : Ascending regions) :
    (bounds regions).Pairwise fun x y => x.1 < y.1 := by
  unfold bounds
  rw [pairwise_map]
  refine h.sorted.imp_of_mem fun {x y} hx _ hxy => ?_
  have := (h.ok x hx).nonempty
  omega

/-- Numbered ranges are determined by their boundaries. -/
theorem numbered_unique {regions regions' : List FrameRegion} {first : Nat}
    (h : Numbered first regions) (h' : Numbered first regions')
    (hbounds : bounds regions = bounds regions') : regions = regions' := by
  induction regions generalizing first regions' with
  | nil =>
    cases regions' with
    | nil => rfl
    | cons _ _ => cases hbounds
  | cons x rest ih =>
    cases regions' with
    | nil => cases hbounds
    | cons x' rest' =>
      obtain ⟨hhead, htail⟩ := List.cons.inj hbounds
      have hx : x = x' := by
        have hstart := congrArg Prod.fst hhead
        have hstop := congrArg Prod.snd hhead
        have hfirst := h.1.trans h'.1.symm
        cases x
        cases x'
        simp only at hstart hstop hfirst
        rw [hstart, hstop, hfirst]
      subst hx
      rw [ih h.2 h'.2 htail]

/-- **The layout is determined by the set of ranges.** -/
theorem regions_unique (ha : AllocInv a) (hb : AllocInv b)
    (h : (bounds a.regions).Perm (bounds b.regions)) : a.regions = b.regions := by
  refine numbered_unique ha.numbered hb.numbered ?_
  exact h.eq_of_pairwise (fun x y _ _ hxy hyx => absurd hyx (Nat.lt_asymm hxy))
    ha.ascending.bounds_sorted hb.ascending.bounds_sorted

theorem Offered.inv (h : AllocInv a) (hfresh : a.started = false)
    (hok : ∀ r, c = .pages r → RegionOk r) (hoffer : Offered a c b) : AllocInv b := by
  cases hoffer with
  | nothing => exact h
  | pages hroom => exact (h.insert hfresh (hok _ rfl) hroom.disjoint hroom.capacity).1

theorem length_withRange (a : FrameAllocator words) (r : FrameRegion) :
    (withRange a r).regions.length = a.regions.length + 1 := by
  show (renumber 0 _).length = _
  rw [renumber_length, insertRegion_perm.length_eq, length_cons]

/-- The ranges after one more. -/
theorem forall_withRange {p : Nat → Nat → Prop} :
    (∀ x ∈ (withRange a r).regions, p x.start x.stop)
      ↔ p r.start r.stop ∧ ∀ x ∈ a.regions, p x.start x.stop := by
  have hbounds : ∀ regions : List FrameRegion, (∀ x ∈ regions, p x.start x.stop)
      ↔ ∀ y ∈ bounds regions, p y.1 y.2 := by
    intro regions
    unfold bounds
    rw [forall_mem_map]
  rw [hbounds, hbounds, ← forall_mem_cons (p := fun y : Nat × Nat => p y.1 y.2)
    (a := (r.start, r.stop))]
  exact ⟨fun h y hy => h y ((bounds_withRange a r).mem_iff.mpr hy),
    fun h y hy => h y ((bounds_withRange a r).mem_iff.mp hy)⟩

/-- Room for two ranges does not depend on which comes first. -/
theorem Room.swap (hr : Room a r) (hr' : Room (withRange a r) r') :
    Room a r' ∧ Room (withRange a r') r := by
  have hlength := hr'.descriptor
  rw [length_withRange] at hlength
  have hcapacity : a.frameCount + r.frames + r'.frames ≤ words * 64 := hr'.capacity
  have hdisjoint := (forall_withRange (p := fun start stop =>
    ¬ (r'.start < stop ∧ start < r'.stop))).mp hr'.disjoint
  refine ⟨⟨hr.descriptor, by omega, hdisjoint.2⟩, ⟨?_, ?_, ?_⟩⟩
  · rw [length_withRange]
    exact hlength
  · show a.frameCount + r'.frames + r.frames ≤ words * 64
    omega
  · refine (forall_withRange (p := fun start stop =>
      ¬ (r.start < stop ∧ start < r.stop))).mpr ⟨?_, hr.disjoint⟩
    exact fun h => hdisjoint.1 ⟨h.2, h.1⟩

/-- Two ranges give the same allocator in either order. -/
theorem withRange_comm (h : AllocInv a) (hfresh : a.started = false) (hok : RegionOk r)
    (hok' : RegionOk r') (hr : Room a r) (hr' : Room (withRange a r) r') :
    withRange (withRange a r) r' = withRange (withRange a r') r := by
  have hswap := hr.swap hr'
  have hfirst : AllocInv (withRange a r) := (h.insert hfresh hok hr.disjoint hr.capacity).1
  have hfirst' : AllocInv (withRange a r') :=
    (h.insert hfresh hok' hswap.1.disjoint hswap.1.capacity).1
  have hboth : AllocInv (withRange (withRange a r) r') :=
    (hfirst.insert hfresh hok' hr'.disjoint hr'.capacity).1
  have hboth' : AllocInv (withRange (withRange a r') r) :=
    (hfirst'.insert hfresh hok hswap.2.disjoint hswap.2.capacity).1
  have hregions : (withRange (withRange a r) r').regions = (withRange (withRange a r') r).regions := by
    refine regions_unique hboth hboth' ?_
    calc bounds (withRange (withRange a r) r').regions
        _ |>.Perm ((r'.start, r'.stop) :: (r.start, r.stop) :: bounds a.regions) :=
          (bounds_withRange _ _).trans ((bounds_withRange a r).cons _)
        _ |>.Perm ((r.start, r.stop) :: (r'.start, r'.stop) :: bounds a.regions) :=
          List.Perm.swap _ _ _
        _ |>.Perm (bounds (withRange (withRange a r') r).regions) :=
          ((bounds_withRange _ _).trans ((bounds_withRange a r').cons _)).symm
  have hcount : (withRange (withRange a r) r').frameCount
      = (withRange (withRange a r') r).frameCount := Nat.add_right_comm ..
  unfold withRange at hregions hcount ⊢
  dsimp only at hregions hcount ⊢
  rw [hregions, hcount]

/-- **Two contributions commute.** -/
theorem offer_comm (h : AllocInv a) (hfresh : a.started = false) {c' : Contribution}
    (hok : ∀ r, c = .pages r → RegionOk r) (hok' : ∀ r, c' = .pages r → RegionOk r)
    {b d : FrameAllocator words} (hfirst : Offered a c b) (hsecond : Offered b c' d) :
    ∃ b', Offered a c' b' ∧ Offered b' c d := by
  cases hfirst with
  | nothing => exact ⟨d, hsecond, .nothing⟩
  | pages hr =>
    cases hsecond with
    | nothing => exact ⟨a, .nothing, .pages hr⟩
    | pages hr' =>
      obtain ⟨hswap, hswap'⟩ := hr.swap hr'
      refine ⟨_, .pages hswap, ?_⟩
      rw [withRange_comm h hfresh (hok _ rfl) (hok' _ rfl) hr hr']
      exact .pages hswap'

/-! ## §3. Maps. -/

/-- The regions of a map that are accepted, added one after the other. -/
def acceptedRegions (a : FrameAllocator words) : List MemoryRegion → List MemoryRegion
  | [] => []
  | region :: rest =>
    if (a.addRegion region).2 then region :: acceptedRegions (a.addRegion region).1 rest
    else acceptedRegions (a.addRegion region).1 rest

/-- Every region of the map is accepted, added one after the other. -/
def allAccepted (a : FrameAllocator words) : List MemoryRegion → Bool
  | [] => true
  | region :: rest => (a.addRegion region).2 && allAccepted (a.addRegion region).1 rest

/-- The pages of the accepted usable regions are managed, and no others. -/
theorem managed_iff (map : List MemoryRegion) (h : AllocInv a) (f : Nat) :
    f ∈ pagesOf (addRegions a map).regions ↔ f ∈ pagesOf a.regions
      ∨ ∃ region ∈ acceptedRegions a map, region.kind = .usable ∧ region.Whole f := by
  induction map generalizing a with
  | nil =>
    show f ∈ pagesOf a.regions ↔ _
    simp [acceptedRegions]
  | cons region rest ih =>
    have hadded := addRegion_spec h region
    show f ∈ pagesOf (addRegions (a.addRegion region).1 rest).regions ↔ _
    rw [ih hadded.inv, acceptedRegions]
    cases hok : (a.addRegion region).2 with
    | true =>
      rw [hadded.accepted hok f, if_pos rfl, or_assoc]
      simp only [mem_cons, exists_eq_or_imp]
    | false =>
      rw [hadded.refused hok, if_neg Bool.false_ne_true]

/-- All contributions of a map are accepted, one after the other. -/
inductive OfferedAll : FrameAllocator words → List MemoryRegion → FrameAllocator words → Prop
  | nil {a : FrameAllocator words} : OfferedAll a [] a
  | cons {a b d : FrameAllocator words} {region : MemoryRegion} {rest : List MemoryRegion}
      (hfirst : Offered a region.contribution b) (hrest : OfferedAll b rest d) :
      OfferedAll a (region :: rest) d

/-- The calls accept every region exactly when the contributions are. -/
theorem offeredAll_iff (map : List MemoryRegion) (hfresh : a.started = false) :
    OfferedAll a map b ↔ allAccepted a map = true ∧ addRegions a map = b := by
  induction map generalizing a with
  | nil =>
    refine ⟨fun h => ?_, fun h => ?_⟩
    · cases h
      exact ⟨rfl, rfl⟩
    · obtain rfl : a = b := h.2
      exact .nil
  | cons region rest ih =>
    rw [allAccepted]
    show _ ↔ _ ∧ addRegions (a.addRegion region).1 rest = b
    rcases addRegion_offer hfresh region with ⟨d, hval, hoffer⟩ | ⟨hval, hnone⟩
    · rw [hval, Bool.true_and, ← ih (hoffer.started.trans hfresh)]
      refine ⟨fun h => ?_, .cons hoffer⟩
      cases h with
      | cons hfirst hrest => exact hoffer.unique hfirst ▸ hrest
    · rw [hval, Bool.false_and]
      refine ⟨fun h => ?_, fun h => nomatch h.1⟩
      cases h with
      | cons hfirst _ => exact absurd hfirst (hnone _)

/-- **Permuted maps.** Accepted in one order, the regions are accepted in the
other, with the same allocator. -/
theorem OfferedAll.perm {map map' : List MemoryRegion} (hperm : map.Perm map') (h : AllocInv a)
    (hfresh : a.started = false) (hall : OfferedAll a map b) : OfferedAll a map' b := by
  induction hperm generalizing a b with
  | nil => exact hall
  | cons region _ ih =>
    cases hall with
    | cons hfirst hrest =>
      have hinv := hfirst.inv h hfresh fun _ => contribution_ok
      exact .cons hfirst (ih hinv (hfirst.started.trans hfresh) hrest)
  | swap y x rest =>
    cases hall with
    | cons hfirst hrest =>
      cases hrest with
      | cons hsecond hrest =>
        have ⟨_, hfirst', hsecond'⟩ := offer_comm h hfresh (fun _ => contribution_ok)
          (fun _ => contribution_ok) hfirst hsecond
        exact .cons hfirst' (.cons hsecond' hrest)
  | trans _ _ ih ih' => exact ih' h hfresh (ih h hfresh hall)

/-- The calls of an allocator that come after a state. -/
inductive Later (a : FrameAllocator words) : FrameAllocator words → Prop
  | refl : Later a a
  | addRegion {b : FrameAllocator words} (region : MemoryRegion) :
      Later a b → Later a (b.addRegion region).1
  | allocFrame {b : FrameAllocator words} : Later a b → Later a b.allocFrame.1
  | freeFrameWith {b : FrameAllocator words} {σ : Type} (frame : Nat)
      (prepare : Nat → σ → σ × Bool) (s : σ) :
      Later a b → Later a (b.freeFrameWith frame prepare s).1

/-- Once a page was allocated the layout is frozen for good. -/
theorem Later.started (h : Later a b) (hstarted : a.started = true) : b.started = true := by
  induction h with
  | refl => exact hstarted
  | @addRegion b region _ ih =>
    rcases addRegion_frozen b region with hsame | hfresh
    · rw [hsame]
      exact ih
    · rw [ih] at hfresh
      cases hfresh
  | @allocFrame b _ ih =>
    unfold FrameAllocator.allocFrame
    dsimp only
    split
    · split
      · exact ih
      · rfl
    · exact ih
  | @freeFrameWith b σ frame prepare s _ ih =>
    unfold FrameAllocator.freeFrameWith
    split
    · exact ih
    split
    · exact ih
    · exact ih

theorem started_of_allocFrame {f : Nat} (h : a.allocFrame.2 = some f) :
    a.allocFrame.1.started = true := by
  revert h
  unfold FrameAllocator.allocFrame
  dsimp only
  split
  · split
    · exact nofun
    · exact fun _ => rfl
  · exact nofun

theorem addRegion_of_started (h : a.started = true) {region : MemoryRegion}
    (hkind : region.kind = .usable) : a.addRegion region = (a, false) := by
  unfold addRegion
  rw [if_neg (fun hne => hne hkind), if_pos h]

/-- **Region registration is order independent.** For every map: exactly the
whole pages of its accepted usable regions are managed; a refused region
changes nothing; in every order of the map all regions are accepted if they are
in one, and then the whole allocator is the same; and after the first
allocation every usable region is refused for good. -/
theorem registration_order_independent (map : List MemoryRegion) :
    (addRegions (.new : FrameAllocator words) map).sets.managed
        = {f | ∃ region ∈ acceptedRegions (.new : FrameAllocator words) map,
            region.kind = .usable ∧ region.Whole f}
      ∧ (∀ (a : FrameAllocator words) region,
        (a.addRegion region).2 = false → (a.addRegion region).1 = a)
      ∧ (∀ map' : List MemoryRegion, map'.Perm map →
        (allAccepted (.new : FrameAllocator words) map'
            = allAccepted (.new : FrameAllocator words) map)
          ∧ (allAccepted (.new : FrameAllocator words) map = true →
            addRegions (.new : FrameAllocator words) map' = addRegions .new map))
      ∧ ∀ (a b : FrameAllocator words) f, a.allocFrame.2 = some f → Later a.allocFrame.1 b →
        ∀ region : MemoryRegion, region.kind = .usable → b.addRegion region = (b, false) := by
  have hinv : AllocInv (.new : FrameAllocator words) := AllocInv.new
  have hpermuted : ∀ {l l' : List MemoryRegion}, l.Perm l' →
      allAccepted (.new : FrameAllocator words) l = true →
      allAccepted (.new : FrameAllocator words) l' = true
        ∧ addRegions (.new : FrameAllocator words) l' = addRegions .new l := by
    intro l l' hperm hall
    have hoffered := (offeredAll_iff l rfl).mpr ⟨hall, rfl⟩
    exact (offeredAll_iff l' rfl).mp (hoffered.perm hperm hinv rfl)
  refine ⟨?_, addRegion_refused, fun map' hperm => ⟨?_, fun hall => ?_⟩, ?_⟩
  · ext f
    show f ∈ pagesOf (addRegions .new map).regions ↔ _
    rw [managed_iff map hinv f]
    exact or_iff_right List.not_mem_nil
  · rw [Bool.eq_iff_iff]
    exact ⟨fun h => (hpermuted hperm h).1, fun h => (hpermuted hperm.symm h).1⟩
  · exact (hpermuted hperm.symm hall).2
  · intro a b f hgrant hlater region hkind
    exact addRegion_of_started (hlater.started (started_of_allocFrame hgrant)) hkind

end Offers

end GenOS.Memory
