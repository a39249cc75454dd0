import FPayNode.ByteStream

/-!
`core/base/BlockBuffer.h` and the receiving half of `SockBuffer.h`: a buffer of
whole blocks that grows up to a number of blocks and is freed when it becomes
empty. Allocation succeeds. The bytes behind `m_size` are not modelled; what a
buffer holds always fits its blocks.
-/

namespace FPayNode.BlockBuffers

open DecimalText ByteStream

structure BlockBuffer (blocksize max_blocks : Nat) where
  content : Bytes
  m_block : Nat
  fits : content.length ≤ m_block * blocksize
  bounded : m_block ≤ max_blocks

variable {blocksize max_blocks : Nat}

namespace BlockBuffer

def fresh : BlockBuffer blocksize max_blocks := ⟨[], 0, Nat.zero_le _, Nat.zero_le _⟩

def size (buffer : BlockBuffer blocksize max_blocks) : Nat := buffer.content.length

def capacity (buffer : BlockBuffer blocksize max_blocks) : Nat := buffer.m_block * blocksize

def freespace (buffer : BlockBuffer blocksize max_blocks) : Nat :=
  buffer.capacity - buffer.size

/-- The blocks for a number of bytes. -/
def blocksOf (blocksize bytes : Nat) : Nat :=
  bytes / blocksize + if bytes % blocksize > 0 then 1 else 0

theorem blocksOf_covers (bytes : Nat) (positive : 0 < blocksize) :
    bytes ≤ blocksOf blocksize bytes * blocksize := by
  have parts := Nat.div_add_mod bytes blocksize
  have below := Nat.mod_lt bytes positive
  rw [Nat.mul_comm] at parts
  simp only [blocksOf, Nat.add_mul]
  split
  · rw [Nat.one_mul]
    omega
  · omega

theorem blocksOf_least (bytes blocks : Nat) (room : bytes ≤ blocks * blocksize) :
    blocksOf blocksize bytes ≤ blocks := by
  have parts := Nat.div_add_mod bytes blocksize
  have whole : bytes / blocksize ≤ blocks := Nat.div_le_of_le_mul (Nat.mul_comm _ _ ▸ room)
  simp only [blocksOf]
  split
  · next rest =>
      have strict : bytes / blocksize ≠ blocks := by
        intro equal
        rw [equal, Nat.mul_comm] at parts
        omega
      omega
  · exact whole

/-- The blocks that `increase_capacity` asks for. -/
def blocksFor (buffer : BlockBuffer blocksize max_blocks) (increase_size : Nat) : Nat :=
  buffer.m_block + blocksOf blocksize (increase_size - buffer.freespace)

theorem blocksFor_grows (buffer : BlockBuffer blocksize max_blocks) (increase_size : Nat) :
    buffer.content.length ≤ buffer.blocksFor increase_size * blocksize := by
  refine buffer.fits.trans (Nat.mul_le_mul_right blocksize ?_)
  exact Nat.le_add_right _ _

/-- None when the buffer cannot grow enough. -/
def increase_capacity (buffer : BlockBuffer blocksize max_blocks) (increase_size : Nat) :
    Option (BlockBuffer blocksize max_blocks) :=
  if increase_size = 0 then some buffer
  else if buffer.freespace ≥ increase_size then some buffer
  else if room : buffer.blocksFor increase_size > max_blocks then none
  else some ⟨buffer.content, buffer.blocksFor increase_size,
    buffer.blocksFor_grows increase_size, Nat.not_lt.mp room⟩

theorem increase_capacity_content (buffer grown : BlockBuffer blocksize max_blocks)
    (increase_size : Nat) (increased : buffer.increase_capacity increase_size = some grown) :
    grown.content = buffer.content ∧ buffer.m_block ≤ grown.m_block := by
  simp only [increase_capacity] at increased
  split at increased
  · cases increased
    exact ⟨rfl, Nat.le_refl _⟩
  · split at increased
    · cases increased
      exact ⟨rfl, Nat.le_refl _⟩
    · split at increased
      · cases increased
      · cases increased
        exact ⟨rfl, Nat.le_add_right _ _⟩

/-- A buffer whose blocks suffice is never refused. -/
theorem increase_capacity_some (buffer : BlockBuffer blocksize max_blocks) (increase_size : Nat)
    (room : buffer.content.length + increase_size ≤ max_blocks * blocksize) :
    ∃ grown, buffer.increase_capacity increase_size = some grown := by
  have fits := buffer.fits
  simp only [increase_capacity]
  split
  · exact ⟨_, rfl⟩
  · split
    · exact ⟨_, rfl⟩
    · next short =>
        split
        · next beyond =>
            exfalso
            simp only [freespace, capacity, size, ge_iff_le, Nat.not_le] at short
            have missing : increase_size - buffer.freespace ≤
                (max_blocks - buffer.m_block) * blocksize := by
              simp only [freespace, capacity, size]
              rw [Nat.sub_mul]
              omega
            have added := blocksOf_least _ _ missing
            have bounded := buffer.bounded
            simp only [blocksFor] at beyond
            omega
        · exact ⟨_, rfl⟩

section Room
variable [NeZero blocksize]

/-- After a successful increase there is room for what was asked. -/
theorem increase_capacity_room (buffer grown : BlockBuffer blocksize max_blocks)
    (increase_size : Nat)
    (increased : buffer.increase_capacity increase_size = some grown) :
    grown.content.length + increase_size ≤ grown.m_block * blocksize := by
  have fits := buffer.fits
  simp only [increase_capacity] at increased
  split at increased
  · next zero =>
      cases increased
      omega
  · split at increased
    · next enough =>
        cases increased
        simp only [freespace, capacity, size] at enough
        omega
    · next short =>
        split at increased
        · cases increased
        · cases increased
          simp only [freespace, capacity, size, ge_iff_le, Nat.not_le] at short
          simp only [blocksFor, freespace, capacity, size, Nat.add_mul]
          have covers := blocksOf_covers
            (increase_size - (buffer.m_block * blocksize - buffer.content.length))
            (Nat.pos_of_neZero blocksize)
          omega

/-- None when the buffer cannot take the bytes. -/
def append (buffer : BlockBuffer blocksize max_blocks) (app : Bytes) :
    Option (BlockBuffer blocksize max_blocks) :=
  if app = [] then some buffer
  else
    match found : buffer.increase_capacity app.length with
    | none => none
    | some grown =>
        some ⟨grown.content ++ app, grown.m_block,
          by
            rw [List.length_append]
            exact increase_capacity_room buffer grown app.length found,
          grown.bounded⟩

theorem append_some (buffer : BlockBuffer blocksize max_blocks) (app : Bytes)
    (room : (buffer.content ++ app).length ≤ max_blocks * blocksize) :
    ∃ after, buffer.append app = some after ∧ after.content = buffer.content ++ app := by
  rw [List.length_append] at room
  obtain ⟨grown, increased⟩ := increase_capacity_some buffer app.length room
  simp only [append]
  split
  · next empty => exact ⟨buffer, rfl, by rw [empty, List.append_nil]⟩
  · split
    · next refused =>
        rw [refused] at increased
        cases increased
    · next other found =>
        refine ⟨_, rfl, ?_⟩
        change other.content ++ app = buffer.content ++ app
        rw [(increase_capacity_content buffer other app.length found).1]

def resize (buffer : BlockBuffer blocksize max_blocks) (n : Nat) (c : UInt8) :
    Option (BlockBuffer blocksize max_blocks) :=
  if n > buffer.size then buffer.append (List.replicate (n - buffer.size) c)
  else some ⟨buffer.content.take n, buffer.m_block,
    (List.length_take_le' n _).trans buffer.fits, buffer.bounded⟩

theorem resize_some (buffer : BlockBuffer blocksize max_blocks) (n : Nat) (c : UInt8)
    (grows : buffer.content.length ≤ n) (room : n ≤ max_blocks * blocksize) :
    ∃ after, buffer.resize n c = some after ∧
      after.content = buffer.content ++ List.replicate (n - buffer.content.length) c := by
  by_cases more : n > buffer.size
  · rw [resize, if_pos more]
    apply append_some
    rw [List.length_append, List.length_replicate, size]
    omega
  · have equal : n = buffer.content.length := Nat.le_antisymm (Nat.not_lt.mp more) grows
    rw [resize, if_neg more]
    refine ⟨_, rfl, ?_⟩
    change buffer.content.take n = _
    rw [equal, Nat.sub_self, List.replicate_zero, List.append_nil, List.take_length]

/-- Replacing up to the end drops the end and appends. -/
def replace (buffer : BlockBuffer blocksize max_blocks) (pos : Nat) (rep : Bytes) :
    Option (BlockBuffer blocksize max_blocks) :=
  if pos ≥ buffer.size then buffer.append rep
  else if inner : pos + rep.length ≥ buffer.size then
    append ⟨buffer.content.take pos, buffer.m_block,
      (List.length_take_le' pos _).trans buffer.fits, buffer.bounded⟩ rep
  else
    some ⟨buffer.content.take pos ++ rep ++ buffer.content.drop (pos + rep.length),
      buffer.m_block,
      by
        have fits := buffer.fits
        simp only [size] at inner
        simp only [List.length_append, List.length_take, List.length_drop]
        omega,
      buffer.bounded⟩

/-- Replacing inside the buffer keeps its length, at its end too. -/
theorem replace_some (buffer : BlockBuffer blocksize max_blocks) (pos : Nat) (rep : Bytes)
    (nonempty : rep ≠ []) (inside : pos + rep.length ≤ buffer.content.length) :
    ∃ after, buffer.replace pos rep = some after ∧
      after.content =
        buffer.content.take pos ++ rep ++ buffer.content.drop (pos + rep.length) := by
  have positive : 0 < rep.length := List.length_pos_of_ne_nil nonempty
  have bound : buffer.content.length ≤ max_blocks * blocksize :=
    buffer.fits.trans (Nat.mul_le_mul_right blocksize buffer.bounded)
  have before : ¬ pos ≥ buffer.size := by
    rw [size]
    omega
  by_cases atEnd : pos + rep.length ≥ buffer.size
  · rw [replace, if_neg before, dif_pos atEnd]
    have whole : pos + rep.length = buffer.content.length := Nat.le_antisymm inside atEnd
    have nothing : buffer.content.drop (pos + rep.length) = [] := by
      rw [whole, List.drop_length]
    obtain ⟨after, appended, content⟩ := append_some
      (⟨buffer.content.take pos, buffer.m_block,
        (List.length_take_le' pos _).trans buffer.fits, buffer.bounded⟩ :
          BlockBuffer blocksize max_blocks) rep
      (by simp only [List.length_append, List.length_take]; omega)
    exact ⟨after, appended, by rw [content, nothing, List.append_nil]⟩
  · rw [replace, if_neg before, dif_neg atEnd]
    exact ⟨_, rfl, rfl⟩

/-- Replacing a piece by one of its length. -/
theorem replace_piece (buffer : BlockBuffer blocksize max_blocks) (pos : Nat)
    (before old rest rep : Bytes) (content : buffer.content = before ++ (old ++ rest))
    (start : before.length = pos) (nonempty : rep ≠ []) (same : old.length = rep.length) :
    ∃ after, buffer.replace pos rep = some after ∧ after.content = before ++ (rep ++ rest) := by
  subst pos
  obtain ⟨after, replaced, result⟩ := replace_some buffer before.length rep nonempty
    (by rw [content, List.length_append, List.length_append]; omega)
  refine ⟨after, replaced, ?_⟩
  rw [result, content, List.take_left, ← List.drop_drop, List.drop_left, ← same, List.drop_left,
    List.append_assoc]

end Room

/-- Erases from the front; an empty buffer gives its blocks back. -/
def erase (buffer : BlockBuffer blocksize max_blocks) (n : Nat) :
    BlockBuffer blocksize max_blocks :=
  if n ≥ buffer.size then fresh
  else ⟨buffer.content.drop n, buffer.m_block,
    (by rw [List.length_drop]; exact (Nat.sub_le _ _).trans buffer.fits), buffer.bounded⟩

theorem erase_content (buffer : BlockBuffer blocksize max_blocks) (n : Nat) :
    (buffer.erase n).content = buffer.content.drop n := by
  by_cases all : n ≥ buffer.size
  · rw [erase, if_pos all]
    exact (List.drop_eq_nil_of_le all).symm
  · rw [erase, if_neg all]

/-! `SockBuffer::pump`. -/

/-- The buffer that `recv` is called on. -/
def prepared (buffer : BlockBuffer blocksize max_blocks) : BlockBuffer blocksize max_blocks :=
  if buffer.freespace < blocksize / 2 ∧ buffer.m_block < max_blocks then
    -- The result of `increase_capacity` is ignored.
    (buffer.increase_capacity blocksize).getD buffer
  else buffer

/-- What `recv` is asked for is the free space; none when there is none, or
when it returns nothing. -/
def pump (buffer : BlockBuffer blocksize max_blocks) (recv : Bytes) :
    Option (BlockBuffer blocksize max_blocks) :=
  if buffer.prepared.freespace = 0 then none
  else if recv.take buffer.prepared.freespace = [] then none
  else some ⟨buffer.prepared.content ++ recv.take buffer.prepared.freespace,
    buffer.prepared.m_block,
    by
      have fits := buffer.prepared.fits
      simp only [List.length_append, List.length_take, freespace, capacity, size]
      omega,
    buffer.prepared.bounded⟩

theorem prepared_content (buffer : BlockBuffer blocksize max_blocks) :
    buffer.prepared.content = buffer.content := by
  simp only [prepared]
  split
  · cases increased : buffer.increase_capacity blocksize with
    | none => rfl
    | some grown => exact (increase_capacity_content buffer grown blocksize increased).1
  · rfl

/-- There is room to receive unless the buffer is full of the last block. -/
theorem prepared_full (buffer : BlockBuffer blocksize max_blocks) (wide : 2 ≤ blocksize)
    (full : buffer.prepared.freespace = 0) :
    buffer.content.length = max_blocks * blocksize := by
  have fits := buffer.fits
  have bounded := buffer.bounded
  by_cases grows : buffer.freespace < blocksize / 2 ∧ buffer.m_block < max_blocks
  · exfalso
    have more : (buffer.m_block + 1) * blocksize ≤ max_blocks * blocksize :=
      Nat.mul_le_mul_right blocksize grows.2
    rw [Nat.add_mul, Nat.one_mul] at more
    obtain ⟨grown, increased⟩ := increase_capacity_some buffer blocksize (by omega)
    have : NeZero blocksize := ⟨by omega⟩
    have room := increase_capacity_room buffer grown blocksize increased
    have same : buffer.prepared = grown := by
      rw [prepared, if_pos grows, increased]
      rfl
    rw [same] at full
    simp only [freespace, capacity, size] at full
    omega
  · have same : buffer.prepared = buffer := by rw [prepared, if_neg grows]
    rw [same] at full
    simp only [full, not_and, Nat.not_lt] at grows
    have last : max_blocks ≤ buffer.m_block := grows (by omega)
    have equal : buffer.m_block = max_blocks := Nat.le_antisymm bounded last
    simp only [freespace, capacity, size, equal] at full fits
    omega

theorem pump_some (buffer : BlockBuffer blocksize max_blocks) (recv : Bytes)
    (received : recv ≠ []) (within : recv.length ≤ buffer.prepared.freespace) :
    ∃ after, buffer.pump recv = some after ∧ after.content = buffer.content ++ recv := by
  have positive := List.length_pos_of_ne_nil received
  have whole : recv.take buffer.prepared.freespace = recv := List.take_of_length_le within
  simp only [pump]
  rw [if_neg (by omega), if_neg (by rw [whole]; exact received)]
  refine ⟨_, rfl, ?_⟩
  change buffer.prepared.content ++ recv.take buffer.prepared.freespace = buffer.content ++ recv
  rw [whole, prepared_content]

end BlockBuffer
end FPayNode.BlockBuffers
