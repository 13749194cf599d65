import Chip8.Terminal.Bitplane

/-!
How the bitplanes divide a frame. Every pixel of which there is a value has its point in the bitplane of that value, and
in no other one; within a bitplane the points come row by row. Where a frame has no width it has no pixels either, so
that no number of a pixel is ever divided by zero. All this needs that 64 bits can hold the number of pixels: a frame
that is larger has no bitplanes at all.
-/

namespace Chip8.Terminal.Resolution

/-- The point of a pixel, where the frame has a width. -/
def point (r : Resolution) (k : Nat) : Point := ⟨(k % r.width.toNat : Nat), -(k / r.width.toNat : Nat)⟩

variable {r : Resolution} {pixels : List UInt8} {plane other : UInt8} {count j k : Nat}

theorem pixelCount?_eq_some (fits : r.width.toNat * r.height.toNat < UInt64.size) :
    r.pixelCount? = some (r.width.toNat * r.height.toNat) := if_pos fits

theorem pixelCount?_eq_none (vast : UInt64.size ≤ r.width.toNat * r.height.toNat) : r.pixelCount? = none :=
  if_neg (Nat.not_lt.mpr vast)

theorem mem_places_iff : k ∈ places count pixels plane ↔ k < min count pixels.length ∧ pixels[k]? = some plane := by
  have numbered : k ∈ places count pixels plane ↔ (pixels.take count)[k]? = some plane := by
    simp only [places, List.mem_map, List.mem_filter, beq_iff_eq, Prod.exists, List.mk_mem_zipIdx_iff_getElem?]
    constructor
    · rintro ⟨value, number, ⟨found, rfl⟩, rfl⟩
      exact found
    · intro found
      exact ⟨plane, k, ⟨found, rfl⟩, rfl⟩
  rw [numbered, List.getElem?_take, Nat.lt_min]
  constructor
  · intro found
    split at found
    · next inside => exact ⟨⟨inside, (List.getElem?_eq_some_iff.mp found).1⟩, found⟩
    · cases found
  · rintro ⟨⟨inside, -⟩, found⟩
    rw [if_pos inside, found]

/-- The numbers ascend, since those of a list do and a bitplane leaves some of them out. -/
theorem pairwise_places (count : Nat) (pixels : List UInt8) (plane : UInt8) :
    (places count pixels plane).Pairwise (· < ·) := by
  have among : (places count pixels plane).Sublist ((pixels.take count).zipIdx.map fun p => p.2) :=
    List.filter_sublist.map _
  rw [List.zipIdx_map_snd] at among
  exact List.Pairwise.sublist among List.pairwise_lt_range'

/-- The number of a pixel is read off its point. -/
theorem point_injective (same : r.point j = r.point k) : j = k := by
  obtain ⟨x, y⟩ := Point.mk.inj same
  have column : j % r.width.toNat = k % r.width.toNat := Int.ofNat.inj x
  have row : j / r.width.toNat = k / r.width.toNat := Int.ofNat.inj (Int.neg_inj.mp y)
  calc j = r.width.toNat * (j / r.width.toNat) + j % r.width.toNat := (Nat.div_add_mod j _).symm
    _ = r.width.toNat * (k / r.width.toNat) + k % r.width.toNat := by rw [column, row]
    _ = k := Nat.div_add_mod k _

theorem mem_map_point_iff {numbers : List Nat} : r.point k ∈ numbers.map r.point ↔ k ∈ numbers := by
  constructor
  · intro listed
    obtain ⟨j, member, same⟩ := List.mem_map.mp listed
    exact point_injective same ▸ member
  · exact List.mem_map_of_mem

theorem nodup_map_point {numbers : List Nat} (ascending : numbers.Pairwise (· < ·)) :
    (numbers.map r.point).Nodup := by
  rw [List.Nodup, List.pairwise_map]
  exact ascending.imp fun less same => Nat.ne_of_lt less (point_injective same)

/-- No pixel has two values, so that no point is in two bitplanes. -/
theorem disjoint_map_point (apart : plane ≠ other) {p : Point} (listed : p ∈ (places count pixels plane).map r.point) :
    p ∉ (places count pixels other).map r.point := by
  intro again
  obtain ⟨k, place, rfl⟩ := List.mem_map.mp listed
  have value := (mem_places_iff.mp place).2
  exact apart (Option.some.inj (value.symm.trans (mem_places_iff.mp (mem_map_point_iff.mp again)).2))

/-- Where the pixels can be counted, a bitplane lists the points of the pixels with its value. -/
theorem bitplane?_eq_some (fits : r.width.toNat * r.height.toNat < UInt64.size) (pixels : List UInt8) (plane : UInt8) :
    r.bitplane? pixels plane = some ((places (r.width.toNat * r.height.toNat) pixels plane).map r.point) := by
  rw [bitplane?, pixelCount?_eq_some fits]
  change (places _ pixels plane).mapM r.point? = _
  by_cases empty : r.width = 0
  · -- There is nothing to divide: a frame without width has no pixels.
    have pixelless : r.width.toNat * r.height.toNat = 0 := by rw [empty]; exact Nat.zero_mul _
    rw [pixelless]
    rfl
  · have divides : r.point? = fun k => some (r.point k) := by
      funext k
      exact if_neg empty
    rw [divides]
    exact List.mapM_pure

theorem bitplane?_eq_none (vast : UInt64.size ≤ r.width.toNat * r.height.toNat) (pixels : List UInt8) (plane : UInt8) :
    r.bitplane? pixels plane = none := by
  rw [bitplane?, pixelCount?_eq_none vast]
  rfl

/-- If 64 bits can hold the number of a frame's pixels, a bitplane lists the point of each pixel of its value, and
nothing else, in ascending order of the pixels' numbers, and nowhere is anything divided by zero. No point is listed
twice or in two bitplanes, each pixel of which there is a value is in one of them, and no two of these pixels have the
same point. -/
theorem bitplanes_partition_frame (r : Resolution) (pixels : List UInt8)
    (fits : r.width.toNat * r.height.toNat < UInt64.size) :
    let shown := min (r.width.toNat * r.height.toNat) pixels.length
    let point (k : Nat) : Point := ⟨(k % r.width.toNat : Nat), -(k / r.width.toNat : Nat)⟩
    ∃ bitplane : UInt8 → List Point, (∀ plane, r.bitplane? pixels plane = some (bitplane plane)) ∧
      (∀ plane, ∃ places : List Nat, bitplane plane = places.map point ∧ places.Pairwise (· < ·) ∧
        ∀ k, k ∈ places ↔ k < shown ∧ pixels[k]? = some plane) ∧
      (∀ plane, (bitplane plane).Nodup) ∧
      (∀ plane other, plane ≠ other → ∀ p ∈ bitplane plane, p ∉ bitplane other) ∧
      (∀ k < shown, ∃ plane, pixels[k]? = some plane ∧ point k ∈ bitplane plane) ∧
      ∀ j < shown, ∀ k < shown, point j = point k → j = k := by
  intro shown point
  have ascending := pairwise_places (r.width.toNat * r.height.toNat) pixels
  refine ⟨fun plane => (places (r.width.toNat * r.height.toNat) pixels plane).map r.point,
    r.bitplane?_eq_some fits pixels, ?_, ?_, ?_, ?_, ?_⟩
  · exact fun plane => ⟨_, rfl, ascending plane, fun k => mem_places_iff⟩
  · exact fun plane => nodup_map_point (ascending plane)
  · exact fun plane other apart p => disjoint_map_point apart
  · intro k inside
    have value : pixels[k]? = some _ := List.getElem?_eq_getElem (Nat.lt_min.mp inside).2
    exact ⟨_, value, mem_map_point_iff.mpr (mem_places_iff.mpr ⟨inside, value⟩)⟩
  · exact fun j _ k _ => point_injective

/-- Seven bytes for a frame of six pixels, and two for one that is only high. -/
theorem small_frames_partitioned :
    let r : Resolution := ⟨3, 2⟩
    let pixels : List UInt8 := [1, 0, 2, 0, 1, 1, 1]
    r.width.toNat * r.height.toNat < UInt64.size ∧
    (∃ points : List Point, r.bitplane? pixels 1 = some points ∧ points.Nodup ∧ ⟨1, -1⟩ ∈ points ∧ ⟨0, -2⟩ ∉ points) ∧
    (⟨0, 9⟩ : Resolution).bitplane? [1, 1] 1 = some [] := by
  intro r pixels
  have fits : r.width.toNat * r.height.toNat < UInt64.size := by decide
  obtain ⟨bitplane, listed, points, distinct, -⟩ := bitplanes_partition_frame r pixels fits
  obtain ⟨places, points, -, mem⟩ := points 1
  obtain ⟨narrow, listed', points', -⟩ := bitplanes_partition_frame ⟨0, 9⟩ [1, 1] (by decide)
  refine ⟨fits, ⟨bitplane 1, listed 1, distinct 1, ?_, ?_⟩, ?_⟩
  · rw [points]
    exact List.mem_map.mpr ⟨4, (mem 4).mpr (by decide), by decide⟩
  · rw [points]
    intro last
    obtain ⟨k, place, same⟩ := List.mem_map.mp last
    have sixth : r.point 6 = ⟨0, -2⟩ := by decide
    obtain rfl : k = 6 := point_injective (same.trans sixth.symm)
    exact absurd ((mem 6).mp place).1 (by decide)
  · obtain ⟨places, points, -, mem⟩ := points' 1
    rw [listed' 1, points]
    rcases places with _ | ⟨k, rest⟩
    · rfl
    · exact absurd ((mem k).mp List.mem_cons_self).1 (by simp)

/-- A square of 4294967296 columns has a pixel for the value that there is, but 64 bits cannot hold the number of its
pixels, and so its bitplane does not list the point. -/
theorem vast_frame_lists_nothing :
    let r : Resolution := ⟨4294967296, 4294967296⟩
    let pixels : List UInt8 := [1]
    0 < min (r.width.toNat * r.height.toNat) pixels.length ∧ pixels[0]? = some 1 ∧ r.bitplane? pixels 1 = none ∧
      ¬∃ points : List Point, r.bitplane? pixels 1 = some points ∧ ⟨0, 0⟩ ∈ points := by
  intro r pixels
  have nothing : r.bitplane? pixels 1 = none := bitplane?_eq_none (by decide) pixels 1
  refine ⟨by decide, rfl, nothing, ?_⟩
  rintro ⟨points, listed, -⟩
  cases nothing.symm.trans listed

end Chip8.Terminal.Resolution
