import FPayNode.BlockBuffers
import FPayNode.CommandProgram
import Mathlib.Algebra.Order.BigOperators.Group.List
import Mathlib.Algebra.Order.Monoid.Canonical.Defs

/-!
`core/base/BlockBuffer.h` with its memory: the allocated blocks, the size and
the counters that all buffers of one instantiation share. Every function is
related to `BlockBuffer`, which has the content instead of the memory, and any
number of buffers to as many lists of bytes. Allocation succeeds; what stands
in newly allocated memory is not known.
-/

namespace FPayNode.BlockMemory

open CommandProgram DecimalText BlockBuffers

/-- The effect of `memmove`, `memcpy` and `memset`. -/
def write (data : Bytes) (pos : Nat) (piece : Bytes) : Bytes :=
  data.take pos ++ piece ++ data.drop (pos + piece.length)

theorem write_length (data : Bytes) (pos : Nat) (piece : Bytes)
    (inside : pos + piece.length ≤ data.length) : (write data pos piece).length = data.length := by
  simp only [write, List.length_append, List.length_take, List.length_drop]
  omega

theorem write_take (data : Bytes) (pos : Nat) (piece : Bytes) (inside : pos ≤ data.length) :
    (write data pos piece).take (pos + piece.length) = data.take pos ++ piece := by
  have start : (data.take pos ++ piece).length = pos + piece.length := by
    rw [List.length_append, List.length_take, Nat.min_eq_left inside]
  rw [write, ← start, List.take_left]

/-- What is written inside a prefix is written to the prefix. -/
theorem write_take_inner (data : Bytes) (pos size : Nat) (piece : Bytes)
    (inside : pos + piece.length ≤ size) (within : size ≤ data.length) :
    (write data pos piece).take size = write (data.take size) pos piece := by
  have start : (data.take pos ++ piece).length = pos + piece.length := by
    rw [List.length_append, List.length_take, Nat.min_eq_left (by omega)]
  rw [write, write, List.take_append, start, List.take_of_length_le (start.trans_le inside),
    List.take_take, Nat.min_eq_left (by omega), List.drop_take]

structure TotalBlocks where
  s_current_total_blocks : Nat
  s_peak_total_blocks : Nat

structure RawBuffer (blocksize max_blocks : Nat) where
  m_data : Bytes
  m_size : Nat
  m_block : Nat

variable {blocksize max_blocks : Nat}

namespace RawBuffer

def fresh : RawBuffer blocksize max_blocks := ⟨[], 0, 0⟩

def capacity (buffer : RawBuffer blocksize max_blocks) : Nat := buffer.m_block * blocksize

def freespace (buffer : RawBuffer blocksize max_blocks) : Nat := buffer.capacity - buffer.m_size

def content (buffer : RawBuffer blocksize max_blocks) : Bytes :=
  buffer.m_data.take buffer.m_size

/-! What a function returns, and the buffer and the counters it leaves. -/

def free (buffer : RawBuffer blocksize max_blocks) (totals : TotalBlocks) :
    RawBuffer blocksize max_blocks × TotalBlocks :=
  if buffer.m_block > 0 then
    ({ buffer with m_data := [], m_block := 0 },
      { totals with s_current_total_blocks := totals.s_current_total_blocks - buffer.m_block })
  else (buffer, totals)

/-- `newdata` after the old data is copied. -/
def moved (buffer : RawBuffer blocksize max_blocks) (newdata : Bytes) : Bytes :=
  if buffer.m_block > 0 then write newdata 0 (buffer.m_data.take buffer.m_size) else newdata

def increase_capacity (malloc : Nat → UInt8) (increase_size : Nat)
    (buffer : RawBuffer blocksize max_blocks) (totals : TotalBlocks) :
    Bool × RawBuffer blocksize max_blocks × TotalBlocks :=
  if increase_size = 0 then (true, buffer, totals)
  else if buffer.freespace ≥ increase_size then (true, buffer, totals)
  else
    let newblock := buffer.m_block +
      BlockBuffer.blocksOf blocksize (increase_size - buffer.freespace)
    if newblock > max_blocks then (false, buffer, totals)
    else
      let newdata := (List.range (newblock * blocksize)).map malloc
      let current := totals.s_current_total_blocks + (newblock - buffer.m_block)
      (true, ⟨buffer.moved newdata, buffer.m_size, newblock⟩,
        ⟨current, max current totals.s_peak_total_blocks⟩)

theorem increase_capacity_size (malloc : Nat → UInt8) (increase_size : Nat)
    (buffer : RawBuffer blocksize max_blocks) (totals : TotalBlocks) :
    (buffer.increase_capacity malloc increase_size totals).2.1.m_size = buffer.m_size := by
  simp only [increase_capacity]
  split
  · rfl
  · split
    · rfl
    · split
      · rfl
      · rfl

def append (malloc : Nat → UInt8) (app : Bytes) (buffer : RawBuffer blocksize max_blocks)
    (totals : TotalBlocks) : Bool × RawBuffer blocksize max_blocks × TotalBlocks :=
  if app.length = 0 then (true, buffer, totals)
  else
    match buffer.increase_capacity malloc app.length totals with
    | (true, grown, counted) =>
        (true, { grown with
          m_data := write grown.m_data grown.m_size app
          m_size := grown.m_size + app.length }, counted)
    | (false, grown, counted) => (false, grown, counted)

def reserve (malloc : Nat → UInt8) (n : Nat) (buffer : RawBuffer blocksize max_blocks)
    (totals : TotalBlocks) : Bool × RawBuffer blocksize max_blocks × TotalBlocks :=
  if n ≤ buffer.capacity then (true, buffer, totals)
  else buffer.increase_capacity malloc (n - buffer.capacity) totals

def resize (malloc : Nat → UInt8) (n : Nat) (c : UInt8) (buffer : RawBuffer blocksize max_blocks)
    (totals : TotalBlocks) : Bool × RawBuffer blocksize max_blocks × TotalBlocks :=
  if n > buffer.m_size then
    let len := n - buffer.m_size
    match buffer.increase_capacity malloc len totals with
    | (true, grown, counted) =>
        (true, { grown with
          m_data := write grown.m_data grown.m_size (List.replicate len c)
          m_size := n }, counted)
    | (false, grown, counted) => (false, grown, counted)
  else (true, { buffer with m_size := n }, totals)

def replace (malloc : Nat → UInt8) (pos : Nat) (rep : Bytes)
    (buffer : RawBuffer blocksize max_blocks) (totals : TotalBlocks) :
    Bool × RawBuffer blocksize max_blocks × TotalBlocks :=
  if pos ≥ buffer.m_size then buffer.append malloc rep totals
  else if pos + rep.length ≥ buffer.m_size then
    ({ buffer with m_size := pos } : RawBuffer blocksize max_blocks).append malloc rep totals
  else if rep.length > 0 then
    (true, { buffer with m_data := write buffer.m_data pos rep }, totals)
  else (true, buffer, totals)

/-- `erase` before it frees. -/
def cut (pos n : Nat) (buffer : RawBuffer blocksize max_blocks) : RawBuffer blocksize max_blocks :=
  let m := buffer.m_size - pos
  if n ≥ m then { buffer with m_size := pos }
  else { buffer with
    m_size := buffer.m_size - n
    m_data := write buffer.m_data pos ((buffer.m_data.drop (pos + n)).take (m - n)) }

def erase (pos n : Nat) (hold : Bool) (buffer : RawBuffer blocksize max_blocks)
    (totals : TotalBlocks) : RawBuffer blocksize max_blocks × TotalBlocks :=
  if (buffer.cut pos n).m_size = 0 ∧ !hold then (buffer.cut pos n).free totals
  else (buffer.cut pos n, totals)

end RawBuffer

/-! The functions on the content that `BlockBuffer` does not have yet. -/

section Content
variable (buffer : BlockBuffer blocksize max_blocks)

def reserved (n : Nat) : Option (BlockBuffer blocksize max_blocks) :=
  if n ≤ buffer.capacity then some buffer else buffer.increase_capacity (n - buffer.capacity)

theorem truncated_fits (n : Nat) :
    (buffer.content.take n).length ≤ buffer.m_block * blocksize :=
  (List.length_take_le' n _).trans buffer.fits

/-- The content up to a length. -/
def truncated (n : Nat) : BlockBuffer blocksize max_blocks :=
  ⟨buffer.content.take n, buffer.m_block, truncated_fits buffer n, buffer.bounded⟩

def sliced (pos n : Nat) : BlockBuffer blocksize max_blocks :=
  ⟨buffer.content.take pos ++ buffer.content.drop (pos + n), buffer.m_block,
    by
      have fits := buffer.fits
      simp only [List.length_append, List.length_take, List.length_drop]
      omega,
    buffer.bounded⟩

def sliceErased (pos n : Nat) (hold : Bool) : BlockBuffer blocksize max_blocks :=
  if (sliced buffer pos n).content = [] ∧ !hold then .fresh else sliced buffer pos n

theorem sliceErased_content (pos n : Nat) (hold : Bool) :
    (sliceErased buffer pos n hold).content =
      buffer.content.take pos ++ buffer.content.drop (pos + n) := by
  simp only [sliceErased]
  split
  · next empty => exact empty.1.symm
  · rfl

/-- Erasing from the front is erasing the slice that starts there. -/
theorem sliceErased_front (n : Nat) : sliceErased buffer 0 n false = buffer.erase n := by
  simp only [sliceErased, sliced, BlockBuffer.erase, List.take_zero, List.nil_append,
    Nat.zero_add, Bool.not_false, and_true, List.drop_eq_nil_iff, BlockBuffer.size, ge_iff_le]

theorem reserved_content (after : BlockBuffer blocksize max_blocks) (n : Nat)
    (taken : reserved buffer n = some after) : after.content = buffer.content := by
  simp only [reserved] at taken
  split at taken
  · cases taken
    rfl
  · exact (BlockBuffer.increase_capacity_content buffer after _ taken).1

variable [NeZero blocksize]

theorem append_refused (app : Bytes) (nonempty : app ≠ [])
    (refused : buffer.increase_capacity app.length = none) : buffer.append app = none := by
  rw [BlockBuffer.append, if_neg nonempty]
  split
  · rfl
  · next grown found =>
      rw [refused] at found
      cases found

theorem append_grown (grown : BlockBuffer blocksize max_blocks) (app : Bytes)
    (nonempty : app ≠ []) (increased : buffer.increase_capacity app.length = some grown) :
    ∃ after, buffer.append app = some after ∧ after.m_block = grown.m_block ∧
      after.content = grown.content ++ app := by
  rw [BlockBuffer.append, if_neg nonempty]
  split
  · next found =>
      rw [increased] at found
      cases found
  · next other found =>
      rw [increased] at found
      cases found
      exact ⟨_, rfl, rfl, rfl⟩

theorem append_content (after : BlockBuffer blocksize max_blocks) (app : Bytes)
    (appended : buffer.append app = some after) : after.content = buffer.content ++ app := by
  by_cases empty : app = []
  · rw [BlockBuffer.append, if_pos empty] at appended
    cases appended
    rw [empty, List.append_nil]
  · cases increased : buffer.increase_capacity app.length with
    | none =>
        rw [append_refused buffer app empty increased] at appended
        cases appended
    | some grown =>
        obtain ⟨other, found, -, content⟩ := append_grown buffer grown app empty increased
        rw [appended] at found
        cases found
        rw [content, (BlockBuffer.increase_capacity_content buffer grown _ increased).1]

end Content

/-! The memory and what it holds. -/

structure Represents (raw : RawBuffer blocksize max_blocks)
    (buffer : BlockBuffer blocksize max_blocks) : Prop where
  blocks : raw.m_block = buffer.m_block
  memory : raw.m_data.length = raw.m_block * blocksize
  size : raw.m_size = buffer.content.length
  content : raw.content = buffer.content

/-- A function does what is expected of the content: it fails and changes
nothing, or succeeds and counts the blocks that were added. -/
def Simulates (before : RawBuffer blocksize max_blocks) (totals : TotalBlocks)
    (outcome : Bool × RawBuffer blocksize max_blocks × TotalBlocks) :
    Option (BlockBuffer blocksize max_blocks) → Prop
  | none => outcome = (false, before, totals)
  | some after =>
      outcome.1 = true ∧ Represents outcome.2.1 after ∧
        outcome.2.2.s_current_total_blocks + before.m_block =
          totals.s_current_total_blocks + after.m_block

section Simulation
variable (malloc : Nat → UInt8) (raw : RawBuffer blocksize max_blocks) (totals : TotalBlocks)
  (buffer : BlockBuffer blocksize max_blocks) (represents : Represents raw buffer)

include represents

theorem represents_inside : raw.m_size ≤ raw.m_data.length := by
  rw [represents.memory, represents.size, represents.blocks]
  exact buffer.fits

theorem represents_freespace : raw.freespace = buffer.freespace := by
  simp only [RawBuffer.freespace, RawBuffer.capacity, BlockBuffer.freespace, BlockBuffer.capacity,
    BlockBuffer.size, represents.blocks, represents.size]

theorem simulates_unchanged : Simulates raw totals (true, raw, totals) (some buffer) :=
  ⟨rfl, represents, congrArg (totals.s_current_total_blocks + ·) represents.blocks⟩

theorem represents_truncated (n : Nat) (shorter : n ≤ raw.m_size) :
    Represents { raw with m_size := n } (truncated buffer n) where
  blocks := represents.blocks
  memory := represents.memory
  size := by
    rw [represents.size] at shorter
    exact (List.length_take_of_le shorter).symm
  content := by
    have content := represents.content
    rw [RawBuffer.content] at content
    change raw.m_data.take n = buffer.content.take n
    rw [← content, List.take_take, Nat.min_eq_left shorter]

/-- New blocks hold the old data. -/
theorem moved_represents (newdata : Bytes) (newblock : Nat) (bounded : newblock ≤ max_blocks)
    (fits : buffer.content.length ≤ newblock * blocksize)
    (allocated : newdata.length = newblock * blocksize) :
    Represents (⟨raw.moved newdata, raw.m_size, newblock⟩ : RawBuffer blocksize max_blocks)
      ⟨buffer.content, newblock, fits, bounded⟩ := by
  have content := represents.content
  rw [RawBuffer.content] at content
  have taken : (raw.m_data.take raw.m_size).length = raw.m_size := by
    rw [content, represents.size]
  refine ⟨rfl, ?_, represents.size, ?_⟩
  · simp only [RawBuffer.moved]
    split
    · rw [write_length, allocated]
      rw [taken, represents.size, allocated]
      omega
    · exact allocated
  · simp only [RawBuffer.content, RawBuffer.moved]
    split
    · have copied := write_take newdata 0 (raw.m_data.take raw.m_size) (Nat.zero_le _)
      rw [taken, Nat.zero_add] at copied
      rw [copied, content]
      rfl
    · next none =>
        -- There was no block, so nothing is copied and nothing was there.
        have empty : raw.m_size = 0 := by
          have inside := represents_inside raw buffer represents
          rw [represents.memory, Nat.eq_zero_of_not_pos none, Nat.zero_mul] at inside
          omega
        rw [empty] at content ⊢
        exact content

theorem increase_capacity_simulates (increase_size : Nat) :
    Simulates raw totals (raw.increase_capacity malloc increase_size totals)
      (buffer.increase_capacity increase_size) := by
  have unchanged := simulates_unchanged raw totals buffer represents
  have asked : raw.m_block +
      BlockBuffer.blocksOf blocksize (increase_size - buffer.freespace) =
        buffer.blocksFor increase_size := by
    rw [represents.blocks]
    rfl
  simp only [RawBuffer.increase_capacity, BlockBuffer.increase_capacity, asked,
    represents_freespace raw buffer represents]
  split
  · exact unchanged
  · split
    · exact unchanged
    · split
      · rfl
      · next room =>
          refine ⟨rfl, ?_, ?_⟩
          · apply moved_represents raw buffer represents
            rw [List.length_map, List.length_range]
          · have grows : raw.m_block ≤ buffer.blocksFor increase_size := by
              rw [represents.blocks]
              exact Nat.le_add_right _ _
            change totals.s_current_total_blocks + (buffer.blocksFor increase_size - raw.m_block) +
              raw.m_block = totals.s_current_total_blocks + buffer.blocksFor increase_size
            omega

theorem reserve_simulates (n : Nat) :
    Simulates raw totals (raw.reserve malloc n totals) (reserved buffer n) := by
  have same : raw.capacity = buffer.capacity :=
    congrArg (· * blocksize) represents.blocks
  simp only [RawBuffer.reserve, reserved, same]
  split
  · exact simulates_unchanged raw totals buffer represents
  · exact increase_capacity_simulates malloc raw totals buffer represents _

/-- Bytes written behind the content extend it. -/
theorem written_represents (app : Bytes)
    (room : buffer.content.length + app.length ≤ buffer.m_block * blocksize)
    (after : BlockBuffer blocksize max_blocks) (blocks : after.m_block = buffer.m_block)
    (extended : after.content = buffer.content ++ app) :
    Represents { raw with
      m_data := write raw.m_data raw.m_size app
      m_size := raw.m_size + app.length } after where
  blocks := represents.blocks.trans blocks.symm
  memory := by
    rw [write_length]
    · exact represents.memory
    · rw [represents.memory, represents.size, represents.blocks]
      exact room
  size := by rw [extended, List.length_append, represents.size]
  content := by
    have content := represents.content
    rw [RawBuffer.content] at content
    rw [RawBuffer.content, write_take _ _ _ (represents_inside raw buffer represents), content,
      extended]

/-- Bytes written inside the content replace as many. -/
theorem inner_represents (pos : Nat) (rep : Bytes) (inside : pos + rep.length ≤ raw.m_size)
    (after : BlockBuffer blocksize max_blocks) (blocks : after.m_block = buffer.m_block)
    (overwritten : after.content =
      buffer.content.take pos ++ rep ++ buffer.content.drop (pos + rep.length)) :
    Represents { raw with m_data := write raw.m_data pos rep } after where
  blocks := represents.blocks.trans blocks.symm
  memory := by
    have within := represents_inside raw buffer represents
    rw [write_length _ _ _ (by omega)]
    exact represents.memory
  size := by
    rw [represents.size] at inside
    rw [overwritten]
    exact represents.size.trans (write_length buffer.content pos rep inside).symm
  content := by
    have content := represents.content
    rw [RawBuffer.content] at content
    rw [RawBuffer.content, write_take_inner _ _ _ _ inside
      (represents_inside raw buffer represents), content, overwritten, write]

/-- The bytes behind the slice move to its place. -/
theorem cut_represents (pos n : Nat) (inside : pos ≤ raw.m_size) :
    Represents (raw.cut pos n) (sliced buffer pos n) := by
  have within := represents_inside raw buffer represents
  have content := represents.content
  rw [RawBuffer.content] at content
  simp only [RawBuffer.cut]
  split
  · next all =>
      have short := represents_truncated raw buffer represents pos inside
      have nothing : buffer.content.drop (pos + n) = [] := by
        rw [List.drop_eq_nil_iff, ← represents.size]
        omega
      have same : sliced buffer pos n = truncated buffer pos := by
        simp only [sliced, truncated, nothing, List.append_nil]
      rw [same]
      exact short
  · next some =>
      have length : ((raw.m_data.drop (pos + n)).take (raw.m_size - pos - n)).length =
          raw.m_size - pos - n := by
        rw [List.length_take, List.length_drop]
        omega
      have rest : (raw.m_data.drop (pos + n)).take (raw.m_size - pos - n) =
          buffer.content.drop (pos + n) := by
        rw [← content, List.drop_take, Nat.sub_sub]
      have front : raw.m_data.take pos = buffer.content.take pos := by
        rw [← content, List.take_take, Nat.min_eq_left inside]
      refine ⟨represents.blocks, ?_, ?_, ?_⟩
      · rw [write_length _ _ _ (by omega)]
        exact represents.memory
      · simp only [sliced, List.length_append, List.length_take, List.length_drop,
          ← represents.size]
        omega
      · have written := write_take raw.m_data pos
          ((raw.m_data.drop (pos + n)).take (raw.m_size - pos - n)) (by omega)
        rw [length, show pos + (raw.m_size - pos - n) = raw.m_size - n by omega, front] at written
        rw [RawBuffer.content, written, rest]
        rfl

theorem erase_represents (pos n : Nat) (hold : Bool) (inside : pos ≤ raw.m_size)
    (counted : raw.m_block ≤ totals.s_current_total_blocks) :
    Represents (raw.erase pos n hold totals).1 (sliceErased buffer pos n hold) ∧
      (raw.erase pos n hold totals).2.s_current_total_blocks + raw.m_block =
        totals.s_current_total_blocks + (sliceErased buffer pos n hold).m_block := by
  have erased := cut_represents raw buffer represents pos n inside
  have blocks : (raw.cut pos n).m_block = raw.m_block := erased.blocks.trans represents.blocks.symm
  have empty : (raw.cut pos n).m_size = 0 ↔ (sliced buffer pos n).content = [] := by
    rw [erased.size, List.length_eq_zero_iff]
  simp only [RawBuffer.erase, sliceErased, ← empty]
  split
  · next freed =>
      simp only [RawBuffer.free, blocks]
      split
      · refine ⟨⟨rfl, (Nat.zero_mul _).symm, freed.1, List.take_nil⟩, ?_⟩
        simp only [BlockBuffer.fresh]
        omega
      · next none =>
          -- An empty buffer without blocks: `free` does nothing.
          have zero : raw.m_block = 0 := Nat.eq_zero_of_not_pos none
          refine ⟨⟨blocks.trans zero, erased.memory, freed.1, ?_⟩, ?_⟩
          · rw [RawBuffer.content, freed.1]
            rfl
          · rw [zero]
            rfl
  · exact ⟨erased, congrArg (totals.s_current_total_blocks + ·) represents.blocks⟩

variable [NeZero blocksize]

theorem append_simulates (app : Bytes) :
    Simulates raw totals (raw.append malloc app totals) (buffer.append app) := by
  by_cases empty : app = []
  · rw [RawBuffer.append, if_pos (by rw [empty]; rfl), BlockBuffer.append, if_pos empty]
    exact simulates_unchanged raw totals buffer represents
  · have grows := increase_capacity_simulates malloc raw totals buffer represents app.length
    rw [RawBuffer.append, if_neg (by simpa using empty)]
    cases increased : buffer.increase_capacity app.length with
    | none =>
        rw [increased] at grows
        have refused : raw.increase_capacity malloc app.length totals = (false, raw, totals) :=
          grows
        rw [refused, append_refused buffer app empty increased]
        rfl
    | some grown =>
        obtain ⟨after, appended, blocks, content⟩ := append_grown buffer grown app empty increased
        rw [increased] at grows
        rw [appended]
        generalize raw.increase_capacity malloc app.length totals = outcome at grows ⊢
        rcases outcome with ⟨answer, moved, more⟩
        obtain ⟨succeeded, holds, counted⟩ := grows
        change answer = true at succeeded
        subst succeeded
        refine ⟨rfl, ?_, blocks ▸ counted⟩
        exact written_represents moved grown holds app
          (BlockBuffer.increase_capacity_room buffer grown app.length increased) after blocks
          content

/-- Growing to a size appends as many bytes as are missing. -/
theorem resize_simulates (n : Nat) (c : UInt8) :
    Simulates raw totals (raw.resize malloc n c totals) (buffer.resize n c) := by
  by_cases longer : n > raw.m_size
  · have missing : (List.replicate (n - raw.m_size) c).length = n - raw.m_size :=
      List.length_replicate
    have appended : raw.resize malloc n c totals =
        raw.append malloc (List.replicate (n - raw.m_size) c) totals := by
      rw [RawBuffer.resize, if_pos longer, RawBuffer.append, missing, if_neg (by omega)]
      dsimp only
      have size := RawBuffer.increase_capacity_size malloc (n - raw.m_size) raw totals
      generalize raw.increase_capacity malloc (n - raw.m_size) totals = outcome at size ⊢
      rcases outcome with ⟨answer, grown, more⟩
      change grown.m_size = raw.m_size at size
      have whole : grown.m_size + (n - raw.m_size) = n := by omega
      cases answer with
      | false => rfl
      | true => simp only [whole]
    rw [appended, BlockBuffer.resize, BlockBuffer.size, ← represents.size, if_pos longer]
    exact append_simulates malloc raw totals buffer represents _
  · rw [RawBuffer.resize, if_neg longer, BlockBuffer.resize, BlockBuffer.size, ← represents.size,
      if_neg longer]
    refine ⟨rfl, ?_, congrArg (totals.s_current_total_blocks + ·) represents.blocks⟩
    exact represents_truncated raw buffer represents n (Nat.not_lt.mp longer)

/-- A replacement that fits in the end. -/
theorem replace_simulates (pos : Nat) (rep : Bytes) (after : BlockBuffer blocksize max_blocks)
    (replaced : buffer.replace pos rep = some after) :
    Simulates raw totals (raw.replace malloc pos rep totals) (some after) := by
  have inside := represents_inside raw buffer represents
  simp only [BlockBuffer.replace, BlockBuffer.size, ← represents.size] at replaced
  simp only [RawBuffer.replace]
  by_cases behind : pos ≥ raw.m_size
  · rw [if_pos behind] at replaced ⊢
    rw [← replaced]
    exact append_simulates malloc raw totals buffer represents rep
  · rw [if_neg behind] at replaced ⊢
    by_cases atEnd : pos + rep.length ≥ raw.m_size
    · -- The size is set back to `pos`, and the replacement is appended.
      rw [if_pos atEnd]
      rw [dif_pos atEnd] at replaced
      have appended := append_simulates malloc { raw with m_size := pos } totals
        (truncated buffer pos)
        (represents_truncated raw buffer represents pos (Nat.le_of_not_le behind)) rep
      rw [truncated, replaced] at appended
      exact appended
    · rw [if_neg atEnd]
      rw [dif_neg atEnd] at replaced
      have result := Option.some.inj replaced
      have blocks : after.m_block = buffer.m_block := by rw [← result]
      have written := inner_represents raw buffer represents pos rep (Nat.le_of_not_le atEnd) after
        blocks (by rw [← result])
      have counted : totals.s_current_total_blocks + raw.m_block =
          totals.s_current_total_blocks + after.m_block := by rw [blocks, represents.blocks]
      split
      · exact ⟨rfl, written, counted⟩
      · next none =>
          have nothing : rep = [] := List.eq_nil_of_length_eq_zero (Nat.eq_zero_of_not_pos none)
          subst nothing
          refine ⟨rfl, ?_, counted⟩
          simpa [write] using written

end Simulation

/-! Any number of buffers. -/

structure Heap (blocksize max_blocks : Nat) where
  live : List (RawBuffer blocksize max_blocks)
  totals : TotalBlocks

def Heap.empty : Heap blocksize max_blocks := ⟨[], ⟨0, 0⟩⟩

/-- A buffer is named by its place among the live ones; `malloc` is what stands
in the memory the call may allocate. -/
inductive BufferCall where
  | construct
  | destroy (buffer : Nat)
  | append (buffer : Nat) (malloc : Nat → UInt8) (app : Bytes)
  | reserve (buffer : Nat) (malloc : Nat → UInt8) (n : Nat)
  | resize (buffer : Nat) (malloc : Nat → UInt8) (n : Nat) (c : UInt8)
  | replace (buffer : Nat) (malloc : Nat → UInt8) (pos : Nat) (rep : Bytes)
  | erase (buffer pos n : Nat) (hold : Bool)

/-- A call on one of the buffers. -/
def Heap.on (heap : Heap blocksize max_blocks) (buffer : Nat)
    (act : RawBuffer blocksize max_blocks → TotalBlocks →
      Bool × RawBuffer blocksize max_blocks × TotalBlocks) :
    Bool × Heap blocksize max_blocks :=
  match heap.live[buffer]? with
  | none => (false, heap)
  | some raw =>
      ((act raw heap.totals).1,
        ⟨heap.live.set buffer (act raw heap.totals).2.1, (act raw heap.totals).2.2⟩)

/-- The calls that return nothing answer `true`. -/
def blockBuffers : Machine BufferCall Bool (Heap blocksize max_blocks)
  | .construct, heap => (true, { heap with live := heap.live ++ [.fresh] })
  | .destroy buffer, heap =>
      match heap.live[buffer]? with
      | none => (false, heap)
      | some raw => (true, ⟨heap.live.eraseIdx buffer, (raw.free heap.totals).2⟩)
  | .append buffer malloc app, heap => heap.on buffer (RawBuffer.append malloc app)
  | .reserve buffer malloc n, heap => heap.on buffer (RawBuffer.reserve malloc n)
  | .resize buffer malloc n c, heap => heap.on buffer (RawBuffer.resize malloc n c)
  | .replace buffer malloc pos rep, heap => heap.on buffer (RawBuffer.replace malloc pos rep)
  | .erase buffer pos n hold, heap =>
      heap.on buffer fun raw totals => (true, raw.erase pos n hold totals)

def maxsize (blocksize max_blocks : Nat) : Nat := max_blocks * blocksize

/-- The call names a live buffer, and a position in it. -/
def Admits (heap : Heap blocksize max_blocks) : BufferCall → Prop
  | .construct => True
  | .destroy buffer | .append buffer _ _ | .reserve buffer _ _ | .resize buffer _ _ _ =>
      buffer < heap.live.length
  | .replace buffer _ pos rep => ∃ raw ∈ heap.live[buffer]?, pos ≤ raw.m_size ∧
      pos + rep.length ≤ maxsize blocksize max_blocks
  | .erase buffer pos _ _ => ∃ raw ∈ heap.live[buffer]?, pos ≤ raw.m_size

instance (heap : Heap blocksize max_blocks) : ∀ call, Decidable (Admits heap call)
  | .construct => .isTrue trivial
  | .destroy _ | .append _ _ _ | .reserve _ _ _ | .resize _ _ _ _ =>
      inferInstanceAs (Decidable (_ < _))
  | .replace _ _ _ _ => inferInstanceAs (Decidable (∃ raw ∈ heap.live[_]?, _ ∧ _))
  | .erase _ _ _ _ => inferInstanceAs (Decidable (∃ raw ∈ heap.live[_]?, _ ≤ _))

/-! The same calls on plain lists of bytes. -/

def padded (n : Nat) (c : UInt8) (content : Bytes) : Bytes :=
  content.take n ++ List.replicate (n - content.length) c

def byteLists (maxsize : Nat) (lists : List Bytes) : BufferCall → List Bytes
  | .construct => lists ++ [[]]
  | .destroy buffer => lists.eraseIdx buffer
  | .append buffer _ app => lists.modify buffer fun content =>
      if (content ++ app).length ≤ maxsize then content ++ app else content
  | .reserve _ _ _ => lists
  | .resize buffer _ n c => lists.modify buffer fun content =>
      if n ≤ maxsize then padded n c content else content
  | .replace buffer _ pos rep => lists.modify buffer fun content =>
      content.take pos ++ rep ++ content.drop (pos + rep.length)
  | .erase buffer pos n _ => lists.modify buffer fun content =>
      content.take pos ++ content.drop (pos + n)

def Heap.contents (heap : Heap blocksize max_blocks) : List Bytes :=
  heap.live.map RawBuffer.content

/-- Succeeds exactly when `fits`, and changes nothing else. -/
def SucceedsIf (heap : Heap blocksize max_blocks) (outcome : Bool × Heap blocksize max_blocks)
    (fits : Prop) : Prop :=
  (outcome.1 = true ↔ fits) ∧ (outcome.1 = false → outcome.2 = heap)

/-- What a call says about its success. -/
def Answers (heap : Heap blocksize max_blocks) : BufferCall → Prop
  | .append buffer malloc app =>
      ∃ content, heap.contents[buffer]? = some content ∧
        SucceedsIf heap (blockBuffers (.append buffer malloc app) heap)
          ((content ++ app).length ≤ maxsize blocksize max_blocks)
  | .resize buffer malloc n c =>
      SucceedsIf heap (blockBuffers (.resize buffer malloc n c) heap)
        (n ≤ maxsize blocksize max_blocks)
  | .replace buffer malloc pos rep =>
      (blockBuffers (.replace buffer malloc pos rep) heap).1 = true
  | _ => True

/-- Every live buffer is sound, and their blocks are counted. -/
structure Sound (heap : Heap blocksize max_blocks) : Prop where
  buffers : ∀ raw ∈ heap.live, ∃ buffer, Represents raw buffer
  counted : heap.totals.s_current_total_blocks = (heap.live.map RawBuffer.m_block).sum

/-! One call on one of the buffers. -/

theorem sum_set (blocks : List Nat) (place old new : Nat) (found : blocks[place]? = some old) :
    (blocks.set place new).sum + old = blocks.sum + new := by
  induction blocks generalizing place with
  | nil => simp at found
  | cons first rest ih =>
      cases place with
      | zero =>
          simp only [List.getElem?_cons_zero, Option.some.injEq] at found
          simp only [List.set_cons_zero, List.sum_cons]
          omega
      | succ place =>
          have later := ih place (by simpa using found)
          simp only [List.set_cons_succ, List.sum_cons]
          omega

section One
variable (heap : Heap blocksize max_blocks) (sound : Sound heap) (place : Nat)
  (raw : RawBuffer blocksize max_blocks) (found : heap.live[place]? = some raw)

include found

theorem block_le_total : raw.m_block ≤ (heap.live.map RawBuffer.m_block).sum :=
  List.le_sum_of_mem (List.mem_map_of_mem (List.mem_of_getElem? found))

include sound

/-- A buffer takes the place of another, and the difference is counted. -/
theorem set_sound (newer : RawBuffer blocksize max_blocks) (totals : TotalBlocks)
    (after : BlockBuffer blocksize max_blocks) (represents : Represents newer after)
    (counted : totals.s_current_total_blocks + raw.m_block =
      heap.totals.s_current_total_blocks + after.m_block) :
    Sound ⟨heap.live.set place newer, totals⟩ := by
  constructor
  · intro other member
    rcases List.mem_or_eq_of_mem_set member with old | same
    · exact sound.buffers other old
    · exact ⟨after, same ▸ represents⟩
  · have sum := sum_set (heap.live.map RawBuffer.m_block) place raw.m_block newer.m_block
      (by rw [List.getElem?_map, found]; rfl)
    have total := sound.counted
    rw [← represents.blocks] at counted
    rw [List.map_set]
    change totals.s_current_total_blocks = _
    omega

variable (act : RawBuffer blocksize max_blocks → TotalBlocks →
  Bool × RawBuffer blocksize max_blocks × TotalBlocks)

omit sound in
theorem on_refused (simulates : Simulates raw heap.totals (act raw heap.totals) none) :
    heap.on place act = (false, heap) := by
  have failed : act raw heap.totals = (false, raw, heap.totals) := simulates
  have same : heap.live.set place raw = heap.live := by
    obtain ⟨bound, here⟩ := List.getElem?_eq_some_iff.mp found
    rw [← here, List.set_getElem_self]
  simp only [Heap.on, found, failed, same]

theorem on_succeeds (after : BlockBuffer blocksize max_blocks)
    (simulates : Simulates raw heap.totals (act raw heap.totals) (some after)) :
    (heap.on place act).1 = true ∧ Sound (heap.on place act).2 ∧
      (heap.on place act).2.contents = heap.contents.set place after.content := by
  obtain ⟨succeeded, represents, counted⟩ := simulates
  simp only [Heap.on, found]
  refine ⟨succeeded, set_sound heap sound place raw found _ _ after represents counted, ?_⟩
  rw [Heap.contents, List.map_set, represents.content]
  rfl

omit sound in
theorem contents_modify (change : Bytes → Bytes) (buffer : BlockBuffer blocksize max_blocks)
    (represents : Represents raw buffer) :
    heap.contents.modify place change = heap.contents.set place (change buffer.content) := by
  rw [List.modify_eq_set_getElem?, Heap.contents, List.getElem?_map, found]
  change (heap.live.map RawBuffer.content).set place (change raw.content) = _
  rw [represents.content]

omit sound in
theorem contents_set_self (buffer : BlockBuffer blocksize max_blocks)
    (represents : Represents raw buffer) :
    heap.contents.set place buffer.content = heap.contents := by
  have kept := contents_modify heap place raw found id buffer represents
  rw [List.modify_id] at kept
  exact kept.symm

/-- A call that may fail: it succeeds when the new content fits, and leaves the
old one otherwise. -/
theorem on_refines (expected : Option (BlockBuffer blocksize max_blocks))
    (simulates : Simulates raw heap.totals (act raw heap.totals) expected)
    (buffer : BlockBuffer blocksize max_blocks) (represents : Represents raw buffer)
    (fits : Prop) [Decidable fits] (content : Bytes)
    (succeeds : fits → ∃ after, expected = some after ∧ after.content = content)
    (refused : ¬ fits → expected = none) :
    Sound (heap.on place act).2 ∧
      (heap.on place act).2.contents =
        heap.contents.set place (if fits then content else buffer.content) ∧
      SucceedsIf heap (heap.on place act) fits := by
  by_cases enough : fits
  · obtain ⟨after, taken, same⟩ := succeeds enough
    rw [taken] at simulates
    obtain ⟨answer, kept, contents⟩ := on_succeeds heap sound place raw found act after simulates
    refine ⟨kept, ?_, iff_of_true answer enough, fun failed => ?_⟩
    · rw [contents, if_pos enough, same]
    · rw [answer] at failed
      cases failed
  · rw [refused enough] at simulates
    rw [on_refused heap place raw found act simulates]
    refine ⟨sound, ?_, iff_of_false Bool.false_ne_true enough, fun _ => rfl⟩
    rw [if_neg enough, contents_set_self heap place raw found buffer represents]

end One

/-! One call. -/

section Call
variable [NeZero blocksize] (heap : Heap blocksize max_blocks) (sound : Sound heap)

/-- The heap stays sound and refines the lists, and the answer is right. -/
def Refines (heap : Heap blocksize max_blocks) (call : BufferCall) : Prop :=
  Sound (blockBuffers call heap).2 ∧
    (blockBuffers call heap).2.contents =
      byteLists (maxsize blocksize max_blocks) heap.contents call ∧
    Answers heap call

omit [NeZero blocksize] in
theorem content_within (buffer : BlockBuffer blocksize max_blocks) :
    buffer.content.length ≤ maxsize blocksize max_blocks :=
  buffer.fits.trans (Nat.mul_le_mul_right blocksize buffer.bounded)

theorem append_too_long (buffer : BlockBuffer blocksize max_blocks) (app : Bytes)
    (long : ¬ (buffer.content ++ app).length ≤ maxsize blocksize max_blocks) :
    buffer.append app = none := by
  cases appended : buffer.append app with
  | none => rfl
  | some after =>
      exfalso
      apply long
      rw [← append_content buffer after app appended]
      exact content_within after

theorem resize_padded (buffer : BlockBuffer blocksize max_blocks) (n : Nat) (c : UInt8)
    (room : n ≤ maxsize blocksize max_blocks) :
    ∃ after, buffer.resize n c = some after ∧ after.content = padded n c buffer.content := by
  by_cases longer : n > buffer.size
  · obtain ⟨after, resized, content⟩ := buffer.resize_some n c (Nat.le_of_lt longer) room
    refine ⟨after, resized, ?_⟩
    rw [content, padded, List.take_of_length_le (Nat.le_of_lt longer)]
  · have none : n - buffer.content.length = 0 := Nat.sub_eq_zero_of_le (Nat.not_lt.mp longer)
    rw [BlockBuffer.resize, if_neg longer]
    refine ⟨_, rfl, ?_⟩
    rw [padded, none, List.replicate_zero, List.append_nil]

theorem resize_too_long (buffer : BlockBuffer blocksize max_blocks) (n : Nat) (c : UInt8)
    (long : ¬ n ≤ maxsize blocksize max_blocks) : buffer.resize n c = none := by
  have within := content_within buffer
  have longer : n > buffer.size := by
    simp only [BlockBuffer.size]
    omega
  rw [BlockBuffer.resize, if_pos longer]
  apply append_too_long
  rw [List.length_append, List.length_replicate, BlockBuffer.size]
  omega

/-- A replacement starts inside the content or at its end. -/
theorem replace_within (buffer : BlockBuffer blocksize max_blocks) (pos : Nat) (rep : Bytes)
    (inside : pos ≤ buffer.content.length)
    (room : pos + rep.length ≤ maxsize blocksize max_blocks) :
    ∃ after, buffer.replace pos rep = some after ∧
      after.content =
        buffer.content.take pos ++ rep ++ buffer.content.drop (pos + rep.length) := by
  by_cases toEnd : buffer.size ≤ pos + rep.length
  · have nothing : buffer.content.drop (pos + rep.length) = [] := List.drop_eq_nil_of_le toEnd
    obtain ⟨after, appended, content⟩ := (truncated buffer pos).append_some rep (by
      change (buffer.content.take pos ++ rep).length ≤ _
      rw [List.length_append, List.length_take_of_le inside]
      exact room)
    refine ⟨after, ?_, by rw [content, nothing, List.append_nil]; rfl⟩
    by_cases behind : pos ≥ buffer.size
    · have whole : truncated buffer pos = buffer := by
        simp only [truncated, List.take_of_length_le behind]
      rw [BlockBuffer.replace, if_pos behind, ← appended, whole]
    · rw [BlockBuffer.replace, if_neg behind, dif_pos toEnd]
      exact appended
  · have inner : ¬ pos ≥ buffer.size := by omega
    rw [BlockBuffer.replace, if_neg inner, dif_neg toEnd]
    exact ⟨_, rfl, rfl⟩

include sound

omit [NeZero blocksize] in
theorem construct_refines : Refines heap .construct := by
  refine ⟨⟨fun raw member => ?_, ?_⟩, ?_, trivial⟩
  · rcases List.mem_append.mp member with old | added
    · exact sound.buffers raw old
    · rw [List.mem_singleton.mp added]
      exact ⟨.fresh, rfl, (Nat.zero_mul _).symm, rfl, rfl⟩
  · simpa [blockBuffers, RawBuffer.fresh] using sound.counted
  · simp [blockBuffers, Heap.contents, byteLists, RawBuffer.fresh, RawBuffer.content]

omit [NeZero blocksize] in
theorem destroy_refines (place : Nat) (raw : RawBuffer blocksize max_blocks)
    (found : heap.live[place]? = some raw) : Refines heap (.destroy place) := by
  have total := sound.counted
  simp only [Refines, blockBuffers, found]
  refine ⟨⟨fun other member => sound.buffers other (List.mem_of_mem_eraseIdx member), ?_⟩, ?_,
    trivial⟩
  · obtain ⟨bound, here⟩ := List.getElem?_eq_some_iff.mp found
    have sum := List.CommMonoid.add_sum_eraseIdx
      (l := heap.live.map RawBuffer.m_block) (i := place) (by rwa [List.length_map])
    rw [List.getElem_map, here, List.eraseIdx_map] at sum
    simp only [RawBuffer.free]
    split
    · simp only
      omega
    · simp only
      omega
  · exact (List.eraseIdx_map RawBuffer.content heap.live place).symm

theorem append_refines (place : Nat) (malloc : Nat → UInt8) (app : Bytes)
    (raw : RawBuffer blocksize max_blocks) (found : heap.live[place]? = some raw)
    (buffer : BlockBuffer blocksize max_blocks) (represents : Represents raw buffer) :
    Refines heap (.append place malloc app) := by
  obtain ⟨kept, contents, answer⟩ := on_refines heap sound place raw found
    (RawBuffer.append malloc app) (buffer.append app)
    (append_simulates malloc raw heap.totals buffer represents app) buffer represents
    ((buffer.content ++ app).length ≤ maxsize blocksize max_blocks) (buffer.content ++ app)
    (buffer.append_some app) (append_too_long buffer app)
  refine ⟨kept, contents.trans ?_, buffer.content, ?_, answer⟩
  · rw [byteLists, contents_modify heap place raw found _ buffer represents]
  · rw [Heap.contents, List.getElem?_map, found, ← represents.content]
    rfl

theorem resize_refines (place : Nat) (malloc : Nat → UInt8) (n : Nat) (c : UInt8)
    (raw : RawBuffer blocksize max_blocks) (found : heap.live[place]? = some raw)
    (buffer : BlockBuffer blocksize max_blocks) (represents : Represents raw buffer) :
    Refines heap (.resize place malloc n c) := by
  obtain ⟨kept, contents, answer⟩ := on_refines heap sound place raw found
    (RawBuffer.resize malloc n c) (buffer.resize n c)
    (resize_simulates malloc raw heap.totals buffer represents n c) buffer represents
    (n ≤ maxsize blocksize max_blocks) (padded n c buffer.content)
    (resize_padded buffer n c) (resize_too_long buffer n c)
  refine ⟨kept, contents.trans ?_, answer⟩
  rw [byteLists, contents_modify heap place raw found _ buffer represents]

omit [NeZero blocksize] in
theorem reserve_refines (place : Nat) (malloc : Nat → UInt8) (n : Nat)
    (raw : RawBuffer blocksize max_blocks) (found : heap.live[place]? = some raw)
    (buffer : BlockBuffer blocksize max_blocks) (represents : Represents raw buffer) :
    Refines heap (.reserve place malloc n) := by
  have simulates := reserve_simulates malloc raw heap.totals buffer represents n
  cases taken : reserved buffer n with
  | none =>
      rw [taken] at simulates
      have same := on_refused heap place raw found (RawBuffer.reserve malloc n) simulates
      simp only [Refines, blockBuffers, same]
      exact ⟨sound, rfl, trivial⟩
  | some after =>
      rw [taken] at simulates
      obtain ⟨-, kept, contents⟩ := on_succeeds heap sound place raw found
        (RawBuffer.reserve malloc n) after simulates
      refine ⟨kept, contents.trans ?_, trivial⟩
      rw [reserved_content buffer after n taken]
      exact contents_set_self heap place raw found buffer represents

theorem replace_refines (place : Nat) (malloc : Nat → UInt8) (pos : Nat) (rep : Bytes)
    (raw : RawBuffer blocksize max_blocks) (found : heap.live[place]? = some raw)
    (buffer : BlockBuffer blocksize max_blocks) (represents : Represents raw buffer)
    (inside : pos ≤ raw.m_size) (room : pos + rep.length ≤ maxsize blocksize max_blocks) :
    Refines heap (.replace place malloc pos rep) := by
  obtain ⟨after, replaced, content⟩ := replace_within buffer pos rep
    (represents.size ▸ inside) room
  obtain ⟨answer, kept, contents⟩ := on_succeeds heap sound place raw found
    (RawBuffer.replace malloc pos rep) after
    (replace_simulates malloc raw heap.totals buffer represents pos rep after replaced)
  refine ⟨kept, contents.trans ?_, answer⟩
  rw [content]
  rw [byteLists, contents_modify heap place raw found _ buffer represents]

omit [NeZero blocksize] in
theorem erase_refines (place pos n : Nat) (hold : Bool) (raw : RawBuffer blocksize max_blocks)
    (found : heap.live[place]? = some raw) (buffer : BlockBuffer blocksize max_blocks)
    (represents : Represents raw buffer) (inside : pos ≤ raw.m_size) :
    Refines heap (.erase place pos n hold) := by
  have counted : raw.m_block ≤ heap.totals.s_current_total_blocks := by
    rw [sound.counted]
    exact block_le_total heap place raw found
  obtain ⟨-, kept, contents⟩ := on_succeeds heap sound place raw found
    (fun raw totals => (true, raw.erase pos n hold totals)) (sliceErased buffer pos n hold)
    ⟨rfl, erase_represents raw heap.totals buffer represents pos n hold inside counted⟩
  refine ⟨kept, contents.trans ?_, trivial⟩
  rw [sliceErased_content]
  rw [byteLists, contents_modify heap place raw found _ buffer represents]

theorem blockBuffers_refines (call : BufferCall) (admitted : Admits heap call) :
    Refines heap call := by
  have live : ∀ place, place < heap.live.length → ∃ raw, heap.live[place]? = some raw ∧
      ∃ buffer, Represents raw buffer := fun place bound =>
    ⟨heap.live[place], List.getElem?_eq_getElem bound,
      sound.buffers _ (List.getElem_mem bound)⟩
  cases call with
  | construct => exact construct_refines heap sound
  | destroy place =>
      obtain ⟨raw, found, -⟩ := live place admitted
      exact destroy_refines heap sound place raw found
  | append place malloc app =>
      obtain ⟨raw, found, buffer, represents⟩ := live place admitted
      exact append_refines heap sound place malloc app raw found buffer represents
  | reserve place malloc n =>
      obtain ⟨raw, found, buffer, represents⟩ := live place admitted
      exact reserve_refines heap sound place malloc n raw found buffer represents
  | resize place malloc n c =>
      obtain ⟨raw, found, buffer, represents⟩ := live place admitted
      exact resize_refines heap sound place malloc n c raw found buffer represents
  | replace place malloc pos rep =>
      obtain ⟨raw, found, inside, room⟩ := admitted
      obtain ⟨buffer, represents⟩ := sound.buffers raw (List.mem_of_getElem? found)
      exact replace_refines heap sound place malloc pos rep raw found buffer represents inside room
  | erase place pos n hold =>
      obtain ⟨raw, found, inside⟩ := admitted
      obtain ⟨buffer, represents⟩ := sound.buffers raw (List.mem_of_getElem? found)
      exact erase_refines heap sound place pos n hold raw found buffer represents inside

end Call

/-! Runs. -/

section Runs
variable [NeZero blocksize]

theorem run_refines (calls : List BufferCall) (heap : Heap blocksize max_blocks)
    (sound : Sound heap)
    (admitted : Throughout blockBuffers Program.perform Admits heap calls) :
    Sound (runAll blockBuffers Program.perform heap calls) ∧
      (runAll blockBuffers Program.perform heap calls).contents =
        calls.foldl (byteLists (maxsize blocksize max_blocks)) heap.contents ∧
      Throughout blockBuffers Program.perform Answers heap calls := by
  induction calls generalizing heap with
  | nil => exact ⟨sound, rfl, trivial⟩
  | cons call calls ih =>
      -- The rest of the run starts from a sound heap with the contents of the lists.
      obtain ⟨kept, contents, answer⟩ := blockBuffers_refines heap sound call admitted.1
      obtain ⟨last, result, answers⟩ := ih _ kept admitted.2
      refine ⟨last, ?_, answer, answers⟩
      rw [List.foldl_cons, ← contents]
      exact result

/-- After every sequence of calls, each live buffer has its size within its
capacity and its blocks within the limit, the contents are those of plain
lists of bytes, and the counter is the sum of the blocks; and every call on the
way succeeded exactly when its result fits. -/
theorem block_buffers_refine_byte_lists (calls : List BufferCall)
    (admitted : Throughout blockBuffers Program.perform Admits
      (Heap.empty : Heap blocksize max_blocks) calls) :
    (∀ raw ∈ (runAll blockBuffers Program.perform
        (Heap.empty : Heap blocksize max_blocks) calls).live,
      raw.m_size ≤ raw.capacity ∧ raw.capacity = raw.m_block * blocksize ∧
        raw.m_data.length = raw.capacity ∧ raw.m_block ≤ max_blocks) ∧
    (runAll blockBuffers Program.perform
        (Heap.empty : Heap blocksize max_blocks) calls).contents =
      calls.foldl (byteLists (maxsize blocksize max_blocks)) [] ∧
    Throughout blockBuffers Program.perform Answers
      (Heap.empty : Heap blocksize max_blocks) calls ∧
    (runAll blockBuffers Program.perform
        (Heap.empty : Heap blocksize max_blocks) calls).totals.s_current_total_blocks =
      ((runAll blockBuffers Program.perform
        (Heap.empty : Heap blocksize max_blocks) calls).live.map RawBuffer.m_block).sum := by
  have start : Sound (Heap.empty : Heap blocksize max_blocks) :=
    ⟨fun _ member => absurd member List.not_mem_nil, rfl⟩
  obtain ⟨sound, contents, answers⟩ := run_refines calls _ start admitted
  refine ⟨fun raw member => ?_, contents, answers, sound.counted⟩
  obtain ⟨buffer, represents⟩ := sound.buffers raw member
  refine ⟨?_, rfl, represents.memory, ?_⟩
  · rw [RawBuffer.capacity, represents.size, represents.blocks]
    exact buffer.fits
  · rw [represents.blocks]
    exact buffer.bounded

end Runs

/-- Two buffers of at most two blocks of four bytes. -/
def busy : List BufferCall :=
  [.construct, .append 0 (fun _ => 170) [1, 2, 3, 4, 5], .construct, .reserve 1 (fun _ => 85) 3,
    .append 0 (fun _ => 0) [6, 7, 8, 9], .replace 0 (fun _ => 0) 4 [10, 11], .erase 0 0 2 false,
    .resize 1 (fun _ => 0) 2 0, .erase 1 0 5 false, .destroy 0]

theorem block_buffers_refine_byte_lists_busy :
    (runAll blockBuffers Program.perform (Heap.empty : Heap 4 2) busy).contents = [[]] ∧
      Throughout blockBuffers Program.perform Answers (Heap.empty : Heap 4 2) busy := by
  have refined := @block_buffers_refine_byte_lists 4 2 _ busy (by
    refine ⟨?_, ?_, ?_, ?_, ?_, ?_, ?_, ?_, ?_, ?_, trivial⟩
    all_goals decide)
  refine ⟨refined.2.1.trans ?_, refined.2.2.1⟩
  decide

end FPayNode.BlockMemory
