import FPayNode.BlockMemory

/-!
`BlockBuffer::reserve`. It hands what is missing to the capacity on to
`increase_capacity`, which takes it for what is missing to the size: the free
space of the blocks that are there is counted a second time.
-/

namespace FPayNode.BufferReserve

open CommandProgram DecimalText BlockBuffers BlockMemory
open BlockBuffer (blocksOf blocksOf_covers blocksOf_least)

variable {blocksize max_blocks : Nat}

/-- What is asked of `reserve`. -/
structure Reserves (malloc : Nat → UInt8) (n : Nat) (raw : RawBuffer blocksize max_blocks)
    (totals : TotalBlocks) : Prop where
  succeeds : (raw.reserve malloc n totals).1 = true ↔ n ≤ maxsize blocksize max_blocks
  capacity : (raw.reserve malloc n totals).1 = true →
    n ≤ (raw.reserve malloc n totals).2.1.capacity
  size : (raw.reserve malloc n totals).2.1.m_size = raw.m_size
  content : (raw.reserve malloc n totals).2.1.content = raw.content

/-- The blocks that `increase_capacity` adds. -/
def addedBlocks (n : Nat) (raw : RawBuffer blocksize max_blocks) : Nat :=
  blocksOf blocksize (n - raw.capacity - raw.freespace)

/-- No block is saved by the free space, or there are too many without it. -/
def EnoughBlocks (n : Nat) (raw : RawBuffer blocksize max_blocks) : Prop :=
  n ≤ raw.capacity ∨ blocksOf blocksize (n - raw.capacity) ≤ addedBlocks n raw ∨
    max_blocks < raw.m_block + addedBlocks n raw

instance (n : Nat) (raw : RawBuffer blocksize max_blocks) : Decidable (EnoughBlocks n raw) :=
  inferInstanceAs (Decidable (_ ∨ _ ∨ _))

/-! One call. -/

section Call
variable (malloc : Nat → UInt8) (n : Nat) (raw : RawBuffer blocksize max_blocks)
variable (totals : TotalBlocks)

theorem reserve_within (within : n ≤ raw.capacity) :
    raw.reserve malloc n totals = (true, raw, totals) := if_pos within

/-- More free space than is asked for beyond the capacity. -/
theorem reserve_free (beyond : raw.capacity < n) (free : n - raw.capacity ≤ raw.freespace) :
    raw.reserve malloc n totals = (true, raw, totals) := by
  rw [RawBuffer.reserve, if_neg (Nat.not_le.mpr beyond), RawBuffer.increase_capacity,
    if_neg (by omega), if_pos free]

theorem reserve_refused (beyond : raw.capacity < n) (missing : raw.freespace < n - raw.capacity)
    (long : max_blocks < raw.m_block + addedBlocks n raw) :
    raw.reserve malloc n totals = (false, raw, totals) := by
  rw [RawBuffer.reserve, if_neg (Nat.not_le.mpr beyond), RawBuffer.increase_capacity,
    if_neg (by omega), if_neg (Nat.not_le.mpr missing)]
  exact if_pos long

theorem reserve_grows (beyond : raw.capacity < n) (missing : raw.freespace < n - raw.capacity)
    (room : raw.m_block + addedBlocks n raw ≤ max_blocks) :
    (raw.reserve malloc n totals).1 = true ∧
      (raw.reserve malloc n totals).2.1.m_block = raw.m_block + addedBlocks n raw := by
  rw [RawBuffer.reserve, if_neg (Nat.not_le.mpr beyond), RawBuffer.increase_capacity,
    if_neg (by omega), if_neg (Nat.not_le.mpr missing)]
  have within : ¬ raw.m_block + blocksOf blocksize (n - raw.capacity - raw.freespace) >
      max_blocks := Nat.not_lt.mpr room
  dsimp only
  rw [if_neg within]
  exact ⟨rfl, rfl⟩

variable (buffer : BlockBuffer blocksize max_blocks) (represents : Represents raw buffer)
include represents

/-- Whatever it returns, the size and the content stay. -/
theorem reserve_unchanged : (raw.reserve malloc n totals).2.1.m_size = raw.m_size ∧
    (raw.reserve malloc n totals).2.1.content = raw.content := by
  have simulates := reserve_simulates malloc raw totals buffer represents n
  cases taken : reserved buffer n with
  | none =>
      rw [taken] at simulates
      rw [show raw.reserve malloc n totals = (false, raw, totals) from simulates]
      exact ⟨rfl, rfl⟩
  | some after =>
      rw [taken] at simulates
      obtain ⟨-, holds, -⟩ := simulates
      have content := reserved_content buffer after n taken
      constructor
      · rw [holds.size, represents.size, content]
      · rw [holds.content, represents.content, content]

theorem capacity_bounded : raw.capacity ≤ maxsize blocksize max_blocks := by
  rw [RawBuffer.capacity, represents.blocks]
  exact Nat.mul_le_mul_right blocksize buffer.bounded

omit represents in
/-- Blocks that reach beyond the limit reach beyond every size within it. -/
theorem long_exceeds (beyond : raw.capacity < n)
    (long : max_blocks < raw.m_block + addedBlocks n raw) : maxsize blocksize max_blocks < n := by
  by_contra fits
  have missing : n - raw.capacity - raw.freespace ≤ (max_blocks - raw.m_block) * blocksize := by
    rw [Nat.sub_mul]
    change _ ≤ maxsize blocksize max_blocks - raw.capacity
    omega
  have added : addedBlocks n raw ≤ max_blocks - raw.m_block := blocksOf_least _ _ missing
  have whole : raw.m_block ≤ max_blocks := by
    by_contra above
    have larger : maxsize blocksize max_blocks ≤ raw.capacity :=
      Nat.mul_le_mul_right blocksize (Nat.le_of_lt (Nat.not_le.mp above))
    omega
  omega

theorem reserves_within (within : n ≤ raw.capacity) : Reserves malloc n raw totals := by
  obtain ⟨size, content⟩ := reserve_unchanged malloc n raw totals buffer represents
  have bounded := capacity_bounded raw buffer represents
  rw [reserve_within malloc n raw totals within] at size content
  constructor
  all_goals rw [reserve_within malloc n raw totals within]
  · exact iff_of_true rfl (within.trans bounded)
  · exact fun _ => within

theorem reserves_refused (beyond : raw.capacity < n) (missing : raw.freespace < n - raw.capacity)
    (long : max_blocks < raw.m_block + addedBlocks n raw) : Reserves malloc n raw totals := by
  obtain ⟨size, content⟩ := reserve_unchanged malloc n raw totals buffer represents
  have refused := reserve_refused malloc n raw totals beyond missing long
  have exceeds := long_exceeds n raw beyond long
  refine ⟨?_, ?_, size, content⟩
  all_goals rw [refused]
  · exact iff_of_false Bool.false_ne_true (Nat.not_le.mpr exceeds)
  · exact fun done => absurd done Bool.false_ne_true

omit represents in
/-- Nothing is added, and the capacity is what it was. -/
theorem not_reserves_free (beyond : raw.capacity < n) (free : n - raw.capacity ≤ raw.freespace) :
    ¬ Reserves malloc n raw totals := by
  intro reserves
  have capacity := reserves.capacity
  rw [reserve_free malloc n raw totals beyond free] at capacity
  exact Nat.not_le.mpr beyond (capacity rfl)

variable [NeZero blocksize]

theorem not_enough_free (beyond : raw.capacity < n) (free : n - raw.capacity ≤ raw.freespace) :
    ¬ EnoughBlocks n raw := by
  have nothing : addedBlocks n raw = 0 := by
    rw [addedBlocks, Nat.sub_eq_zero_of_le free, blocksOf, Nat.zero_div, Nat.zero_mod]
    rfl
  have covers := blocksOf_covers (n - raw.capacity) (Nat.pos_of_neZero blocksize)
  rintro (small | enough | long)
  · exact Nat.not_le.mpr beyond small
  · rw [nothing] at enough
    rw [Nat.le_zero.mp enough, Nat.zero_mul] at covers
    omega
  · rw [nothing, represents.blocks] at long
    exact absurd buffer.bounded (Nat.not_le.mpr long)

/-- Blocks are added, and they are enough when the free space saves none. -/
theorem reserves_grown_iff (beyond : raw.capacity < n)
    (missing : raw.freespace < n - raw.capacity)
    (room : raw.m_block + addedBlocks n raw ≤ max_blocks) :
    Reserves malloc n raw totals ↔ blocksOf blocksize (n - raw.capacity) ≤ addedBlocks n raw := by
  obtain ⟨size, content⟩ := reserve_unchanged malloc n raw totals buffer represents
  obtain ⟨done, blocks⟩ := reserve_grows malloc n raw totals beyond missing room
  have grown : (raw.reserve malloc n totals).2.1.capacity =
      raw.capacity + addedBlocks n raw * blocksize := by
    rw [RawBuffer.capacity, blocks, Nat.add_mul]
    rfl
  have limit : raw.capacity + addedBlocks n raw * blocksize ≤ maxsize blocksize max_blocks := by
    rw [RawBuffer.capacity, ← Nat.add_mul]
    exact Nat.mul_le_mul_right blocksize room
  constructor
  · intro reserves
    have capacity := reserves.capacity done
    rw [grown] at capacity
    exact blocksOf_least _ _ (by omega)
  · intro enough
    have covers := (blocksOf_covers (n - raw.capacity) (Nat.pos_of_neZero blocksize)).trans
      (Nat.mul_le_mul_right blocksize enough)
    have reached : n ≤ (raw.reserve malloc n totals).2.1.capacity := by
      rw [grown]
      omega
    exact ⟨iff_of_true done (by omega), fun _ => reached, size, content⟩

theorem reserves_iff : Reserves malloc n raw totals ↔ EnoughBlocks n raw := by
  by_cases within : n ≤ raw.capacity
  · exact iff_of_true (reserves_within malloc n raw totals buffer represents within) (.inl within)
  have beyond := Nat.not_le.mp within
  by_cases free : n - raw.capacity ≤ raw.freespace
  · exact iff_of_false (not_reserves_free malloc n raw totals beyond free)
      (not_enough_free n raw buffer represents beyond free)
  have missing := Nat.not_le.mp free
  by_cases long : max_blocks < raw.m_block + addedBlocks n raw
  · exact iff_of_true (reserves_refused malloc n raw totals buffer represents beyond missing long)
      (.inr (.inr long))
  rw [reserves_grown_iff malloc n raw totals buffer represents beyond missing (Nat.not_lt.mp long),
    EnoughBlocks, or_iff_right within, or_iff_left long]

end Call

/-- `SockBuffer::pump`, given what stands in the socket. -/
def pumped (malloc : Nat → UInt8) (recv : Bytes) (raw : RawBuffer blocksize max_blocks)
    (totals : TotalBlocks) : RawBuffer blocksize max_blocks :=
  let grown :=
    if raw.freespace < blocksize / 2 ∧ raw.m_block < max_blocks then
      (raw.increase_capacity malloc blocksize totals).2.1
    else raw
  { grown with
    m_data := write grown.m_data grown.m_size (recv.take grown.freespace)
    m_size := grown.m_size + (recv.take grown.freespace).length }

/-! The states that the functions of the class and of `SockBuffer` lead to,
whatever other buffers do to the counters meanwhile. -/

inductive Reached : RawBuffer blocksize max_blocks → Prop
  | constructed : Reached .fresh
  | appended (raw : RawBuffer blocksize max_blocks) (malloc : Nat → UInt8) (app : Bytes)
      (totals : TotalBlocks) : Reached raw → Reached (raw.append malloc app totals).2.1
  | reserved (raw : RawBuffer blocksize max_blocks) (malloc : Nat → UInt8) (n : Nat)
      (totals : TotalBlocks) : Reached raw → Reached (raw.reserve malloc n totals).2.1
  | resized (raw : RawBuffer blocksize max_blocks) (malloc : Nat → UInt8) (n : Nat) (c : UInt8)
      (totals : TotalBlocks) : Reached raw → Reached (raw.resize malloc n c totals).2.1
  | replaced (raw : RawBuffer blocksize max_blocks) (malloc : Nat → UInt8) (pos : Nat)
      (rep : Bytes) (totals : TotalBlocks) :
      Reached raw → Reached (raw.replace malloc pos rep totals).2.1
  | erased (raw : RawBuffer blocksize max_blocks) (pos n : Nat) (hold : Bool)
      (totals : TotalBlocks) (inside : pos ≤ raw.m_size) :
      Reached raw → Reached (raw.erase pos n hold totals).1
  | received (raw : RawBuffer blocksize max_blocks) (malloc : Nat → UInt8) (recv : Bytes)
      (totals : TotalBlocks) : Reached raw → Reached (pumped malloc recv raw totals)

/-- What a function leaves holds some content again, also when it failed. -/
theorem simulates_holds (before : RawBuffer blocksize max_blocks)
    (held : ∃ buffer, Represents before buffer) (totals : TotalBlocks)
    (outcome : Bool × RawBuffer blocksize max_blocks × TotalBlocks)
    (expected : Option (BlockBuffer blocksize max_blocks))
    (simulates : Simulates before totals outcome expected) :
    ∃ buffer, Represents outcome.2.1 buffer := by
  cases expected with
  | none =>
      rw [show outcome = (false, before, totals) from simulates]
      exact held
  | some after => exact ⟨after, simulates.2.1⟩

/-- The counters do not decide what `erase` leaves. -/
theorem erase_any_totals (raw : RawBuffer blocksize max_blocks) (pos n : Nat) (hold : Bool)
    (totals other : TotalBlocks) :
    (raw.erase pos n hold totals).1 = (raw.erase pos n hold other).1 := by
  simp only [RawBuffer.erase, RawBuffer.free]
  split
  · split
    · rfl
    · rfl
  · rfl

theorem pumped_holds (raw : RawBuffer blocksize max_blocks)
    (held : ∃ buffer, Represents raw buffer) (malloc : Nat → UInt8) (recv : Bytes)
    (totals : TotalBlocks) : ∃ after, Represents (pumped malloc recv raw totals) after := by
  simp only [pumped]
  have grown : ∃ buffer, Represents
      (if raw.freespace < blocksize / 2 ∧ raw.m_block < max_blocks then
        (raw.increase_capacity malloc blocksize totals).2.1 else raw) buffer := by
    obtain ⟨buffer, represents⟩ := held
    split
    · exact simulates_holds raw ⟨buffer, represents⟩ totals _ _
        (increase_capacity_simulates malloc raw totals buffer represents blocksize)
    · exact ⟨buffer, represents⟩
  generalize (if raw.freespace < blocksize / 2 ∧ raw.m_block < max_blocks then
    (raw.increase_capacity malloc blocksize totals).2.1 else raw) = ready at grown ⊢
  obtain ⟨buffer, represents⟩ := grown
  have room : buffer.content.length + (recv.take ready.freespace).length ≤
      buffer.m_block * blocksize := by
    have fits := buffer.fits
    rw [represents_freespace ready buffer represents, List.length_take]
    simp only [BlockBuffer.freespace, BlockBuffer.capacity, BlockBuffer.size]
    omega
  refine ⟨⟨buffer.content ++ recv.take ready.freespace, buffer.m_block, ?_, buffer.bounded⟩,
    written_represents ready buffer represents (recv.take ready.freespace) room _ rfl rfl⟩
  rw [List.length_append]
  exact room

section Reached
variable [NeZero blocksize]

theorem replaced_holds (raw : RawBuffer blocksize max_blocks)
    (buffer : BlockBuffer blocksize max_blocks) (represents : Represents raw buffer)
    (malloc : Nat → UInt8) (pos : Nat) (rep : Bytes) (totals : TotalBlocks) :
    ∃ after, Represents (raw.replace malloc pos rep totals).2.1 after := by
  by_cases behind : pos ≥ raw.m_size
  · rw [RawBuffer.replace, if_pos behind]
    exact simulates_holds raw ⟨buffer, represents⟩ totals _ _
      (append_simulates malloc raw totals buffer represents rep)
  · by_cases atEnd : pos + rep.length ≥ raw.m_size
    · -- Refused bytes leave the content cut off at `pos`.
      have shorter := represents_truncated raw buffer represents pos (Nat.le_of_not_le behind)
      rw [RawBuffer.replace, if_neg behind, if_pos atEnd]
      exact simulates_holds _ ⟨_, shorter⟩ totals _ _
        (append_simulates malloc _ totals (truncated buffer pos) shorter rep)
    · have inner : pos + rep.length ≤ buffer.content.length := by
        rw [← represents.size]
        exact Nat.le_of_not_le atEnd
      obtain ⟨after, replaced, -⟩ := replace_within buffer pos rep (by omega)
        (inner.trans (content_within buffer))
      exact ⟨after,
        (replace_simulates malloc raw totals buffer represents pos rep after replaced).2.1⟩

theorem reached_holds (raw : RawBuffer blocksize max_blocks) (reached : Reached raw) :
    ∃ buffer, Represents raw buffer := by
  induction reached with
  | constructed => exact ⟨.fresh, rfl, (Nat.zero_mul _).symm, rfl, rfl⟩
  | appended raw malloc app totals _ held =>
      obtain ⟨buffer, represents⟩ := held
      exact simulates_holds raw ⟨buffer, represents⟩ totals _ _
        (append_simulates malloc raw totals buffer represents app)
  | reserved raw malloc n totals _ held =>
      obtain ⟨buffer, represents⟩ := held
      exact simulates_holds raw ⟨buffer, represents⟩ totals _ _
        (reserve_simulates malloc raw totals buffer represents n)
  | resized raw malloc n c totals _ held =>
      obtain ⟨buffer, represents⟩ := held
      exact simulates_holds raw ⟨buffer, represents⟩ totals _ _
        (resize_simulates malloc raw totals buffer represents n c)
  | replaced raw malloc pos rep totals _ held =>
      obtain ⟨buffer, represents⟩ := held
      exact replaced_holds raw buffer represents malloc pos rep totals
  | erased raw pos n hold totals inside _ held =>
      obtain ⟨buffer, represents⟩ := held
      rw [erase_any_totals raw pos n hold totals ⟨raw.m_block, raw.m_block⟩]
      exact ⟨_, (erase_represents raw _ buffer represents pos n hold inside (Nat.le_refl _)).1⟩
  | received raw malloc recv totals _ held => exact pumped_holds raw held malloc recv totals

/-- In every reachable state `reserve` does what is asked of it exactly when
the free space saves none of the blocks. -/
theorem reserve_counts_free_space_twice (raw : RawBuffer blocksize max_blocks)
    (reached : Reached raw) (malloc : Nat → UInt8) (n : Nat) (totals : TotalBlocks) :
    Reserves malloc n raw totals ↔ EnoughBlocks n raw := by
  obtain ⟨buffer, represents⟩ := reached_holds raw reached
  exact reserves_iff malloc n raw totals buffer represents

end Reached

/-- One byte in the buffer of `PackBuffer`. -/
def oneByte : RawBuffer 16384 65536 := (RawBuffer.fresh.append (fun _ => 0) [7] ⟨0, 0⟩).2.1

theorem oneByte_reached : Reached oneByte := .appended _ _ _ _ .constructed

theorem reserve_counts_free_space_twice_oneByte :
    Reserves (fun _ => 0) 16384 oneByte ⟨1, 1⟩ ∧ ¬ Reserves (fun _ => 0) 20000 oneByte ⟨1, 1⟩ := by
  have exactly := fun n =>
    reserve_counts_free_space_twice oneByte oneByte_reached (fun _ => 0) n ⟨1, 1⟩
  constructor
  · rw [exactly]
    decide
  · rw [exactly]
    decide

/-- 20000 bytes are reserved, and the capacity stays 16384. -/
theorem reserve_short : oneByte.capacity = 16384 ∧
    (oneByte.reserve (fun _ => 0) 20000 ⟨1, 1⟩).1 = true ∧
    (oneByte.reserve (fun _ => 0) 20000 ⟨1, 1⟩).2.1.capacity = 16384 ∧
    ¬ ∀ raw : RawBuffer 16384 65536, Reached raw → ∀ malloc n totals,
      Reserves malloc n raw totals := by
  have free := reserve_free (fun _ => 0) 20000 oneByte ⟨1, 1⟩ (by decide) (by decide)
  refine ⟨by decide, by rw [free], by rw [free]; decide, fun always => ?_⟩
  have capacity := (always oneByte oneByte_reached (fun _ => 0) 20000 ⟨1, 1⟩).capacity
  rw [free] at capacity
  exact absurd (capacity rfl) (by decide)

end FPayNode.BufferReserve
