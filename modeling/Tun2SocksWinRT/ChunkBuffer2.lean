import Tun2SocksWinRT.ByteMemory

namespace Tun2SocksWinRT

/-!
# `ChunkBuffer2`: the circular packet buffer

`structure/ChunkBuffer2.h` keeps packets in an array of four-byte blocks.  A
packet is a header block holding its length followed by the blocks of its
data.  Packets are queued from `start` on; when the space after the last one
can no longer take a packet of `mtu` blocks, the queue wraps to block 0 and
`wrap` marks where the data before the wrap ends.  `input_dest`/`input_avail`
say where the next packet may be written and how long it may be, and
`output_dest`/`output_avail` expose the oldest packet.

The model keeps the buffer as byte-addressed memory (offset 0 is the first
block), the indices as integers, and the two pointer/length pairs as
`Window`s holding a byte offset.  The one conversion that can overflow, the
`size_t` product stored in `input_avail`, goes through `toInt32`.

`Holds` is the representation invariant: the checks of
`_ChunkBuffer2_assert_buffer` and `_ChunkBuffer2_assert_io`, and a layout of
the queued packets in memory (`Segment`, `Stored`).  It holds after `init`,
and `submit`/`consume` keep it, refining a FIFO queue of byte strings, as long
as the buffer's byte size fits an `int`.
-/

open ByteMemory

/-- `bdivide_up` of `misc/balign.h`: the quotient rounded up. -/
def bdivideUp (a b : Nat) : Nat :=
  if a % b > 0 then a / b + 1 else a / b

/--
`bdivide_up(len, sizeof(struct ChunkBuffer2_block))`: the blocks that `len`
bytes take.  Every length passed here is non-negative (the callers assert it).
-/
def blockCount (len : Int) : Int :=
  bdivideUp len.toNat 4

/-- The `len` field of block `index`. -/
def blockLen (buffer : Int → UInt8) (index : Int) : Int :=
  readInt32 buffer (4 * index)

/-- A pointer into the buffer (a byte offset, or `NULL`) with its length. -/
structure Window where
  dest : Option Int
  avail : Int
  deriving Repr, DecidableEq

/-- The window of a side that is closed: `NULL` and -1. -/
def Window.closed : Window :=
  ⟨none, -1⟩

/-- The `ChunkBuffer2` record together with the memory of its blocks. -/
structure ChunkBuffer2 where
  buffer : Int → UInt8
  size : Int
  wrap : Int
  start : Int
  used : Int
  mtu : Int
  input : Window
  output : Window

namespace ChunkBuffer2

/-- `_ChunkBuffer2_end`: the block after the last queued packet. -/
def dataEnd (buf : ChunkBuffer2) : Int :=
  if buf.used ≥ buf.wrap - buf.start then
    buf.used - (buf.wrap - buf.start)
  else
    buf.start + buf.used

/--
The number of free blocks from the end on, as `_ChunkBuffer2_update_input`
and `_ChunkBuffer2_assert_io` both compute it.
-/
def free (buf : ChunkBuffer2) : Int :=
  if buf.used ≥ buf.wrap - buf.start then
    buf.start - buf.dataEnd
  else
    buf.size - buf.dataEnd

/--
The input window `_ChunkBuffer2_update_input` sets.  The length is computed
as a `size_t` and stored in an `int`.
-/
def inputWindow (buf : ChunkBuffer2) : Window :=
  if buf.size - buf.dataEnd - 1 < buf.mtu then
    -- it will never be possible to write a MTU long packet here
    .closed
  else if buf.free > 0 then
    ⟨some (4 * (buf.dataEnd + 1)), toInt32 ((buf.free - 1) * 4)⟩
  else
    .closed

/-- `_ChunkBuffer2_update_input`. -/
def updateInput (buf : ChunkBuffer2) : ChunkBuffer2 :=
  { buf with input := buf.inputWindow }

/-- The output window `_ChunkBuffer2_update_output` sets: the first packet. -/
def outputWindow (buf : ChunkBuffer2) : Window :=
  if buf.used > 0 then
    ⟨some (4 * (buf.start + 1)), blockLen buf.buffer buf.start⟩
  else
    .closed

/-- `_ChunkBuffer2_update_output`. -/
def updateOutput (buf : ChunkBuffer2) : ChunkBuffer2 :=
  { buf with output := buf.outputWindow }

/-- `ChunkBuffer2_Init`; the windows are set by the two updates. -/
def init (buffer : Int → UInt8) (blocks mtu : Int) : ChunkBuffer2 :=
  let buf : ChunkBuffer2 :=
    { buffer
      size := blocks
      wrap := blocks
      start := 0
      used := 0
      mtu := blockCount mtu
      input := .closed
      output := .closed }
  buf.updateInput.updateOutput

/-- `ChunkBuffer2_SubmitPacket`: the packet's data is already at `input_dest`. -/
def submitPacket (buf : ChunkBuffer2) (len : Int) : ChunkBuffer2 :=
  let endIndex := buf.dataEnd
  let blocklen := blockCount len
  let buf :=
    { buf with
      buffer := writeInt32 buf.buffer (4 * endIndex) len
      used := buf.used + 1 + blocklen }
  let buf :=
    if buf.used ≤ buf.wrap - buf.start ∧ buf.mtu > buf.size - (endIndex + 1 + blocklen) - 1 then
      { buf with wrap := endIndex + 1 + blocklen }
    else
      buf
  let buf := buf.updateInput
  if buf.used = 1 + blocklen then buf.updateOutput else buf

/-- `ChunkBuffer2_ConsumePacket`. -/
def consumePacket (buf : ChunkBuffer2) : ChunkBuffer2 :=
  let blocklen := blockCount (blockLen buf.buffer buf.start)
  let dataWrapped := decide (buf.used ≥ buf.wrap - buf.start)
  let buf := { buf with start := buf.start + 1 + blocklen, used := buf.used - (1 + blocklen) }
  let buf := if buf.start = buf.wrap then { buf with start := 0, wrap := buf.size } else buf
  let buf := if dataWrapped then buf.updateInput else buf
  buf.updateOutput

/-- `_ChunkBuffer2_assert_buffer`. -/
structure AssertBuffer (buf : ChunkBuffer2) : Prop where
  size_pos : buf.size > 0
  wrap_pos : buf.wrap > 0
  wrap_le : buf.wrap ≤ buf.size
  start_nonneg : buf.start ≥ 0
  start_lt : buf.start < buf.wrap
  used_nonneg : buf.used ≥ 0
  used_le : buf.used ≤ buf.wrap
  wrapped : buf.wrap = buf.size ∨ buf.used ≥ buf.wrap - buf.start
  mtu_nonneg : buf.mtu ≥ 0

/--
The input window `_ChunkBuffer2_assert_io` expects.  Its length is compared
as a 64-bit `size_t`, in which both sides are exact, so the product is not
wrapped here.
-/
def checkedInput (buf : ChunkBuffer2) : Window :=
  if buf.size - buf.dataEnd - 1 < buf.mtu then
    .closed
  else if buf.free > 0 then
    ⟨some (4 * (buf.dataEnd + 1)), (buf.free - 1) * 4⟩
  else
    .closed

/-- The output half of `_ChunkBuffer2_assert_io`. -/
def OutputChecked (buf : ChunkBuffer2) : Prop :=
  if buf.used > 0 then
    let datalen := blockLen buf.buffer buf.start
    datalen ≥ 0 ∧ blockCount datalen ≤ buf.used - 1 ∧
      blockCount datalen ≤ buf.wrap - buf.start - 1 ∧
      buf.output = ⟨some (4 * (buf.start + 1)), datalen⟩
  else
    buf.output = .closed

/-- `_ChunkBuffer2_assert_io`. -/
structure AssertIo (buf : ChunkBuffer2) : Prop where
  input : buf.input = buf.checkedInput
  output : buf.OutputChecked

/-! ## Block arithmetic and the packet layout -/

theorem blockCount_nonneg (len : Int) : 0 ≤ blockCount len := by
  unfold blockCount
  omega

/-- `len` bytes fit in `count` blocks exactly when `blockCount len ≤ count`. -/
theorem blockCount_le_iff {len : Int} (nonneg : 0 ≤ len) (count : Int) :
    blockCount len ≤ count ↔ len ≤ 4 * count := by
  unfold blockCount bdivideUp
  split <;> omega

theorem le_four_mul_blockCount {len : Int} (nonneg : 0 ≤ len) : len ≤ 4 * blockCount len :=
  (blockCount_le_iff nonneg _).mp le_rfl

/--
Packets laid out back to back from block `pos` up to block `stop`: a header
block holding the packet's length, then its data from the next block on.
-/
inductive Segment (buffer : Int → UInt8) : Int → List (List UInt8) → Int → Prop
  | nil (pos : Int) : Segment buffer pos [] pos
  | cons {pos stop : Int} {packet : List UInt8} {rest : List (List UInt8)}
      (header : blockLen buffer pos = packet.length)
      (data : read buffer (4 * (pos + 1)) packet.length = packet)
      (tail : Segment buffer (pos + 1 + blockCount packet.length) rest stop) :
      Segment buffer pos (packet :: rest) stop

namespace Segment

variable {buffer : Int → UInt8} {pos stop : Int} {packets : List (List UInt8)}

/-- Every packet takes at least one block. -/
theorem length_le (segment : Segment buffer pos packets stop) : pos + packets.length ≤ stop := by
  induction segment with
  | nil pos =>
      simp
  | @cons pos stop packet rest _ _ _ inductionHypothesis =>
      have dataBlocks := blockCount_nonneg packet.length
      simp only [List.length_cons]
      omega

/-- An empty run of blocks holds no packet. -/
theorem eq_nil (segment : Segment buffer pos packets stop) (empty : stop ≤ pos) : packets = [] := by
  have bound := segment.length_le
  apply List.eq_nil_of_length_eq_zero
  omega

/-- A non-empty run of blocks starts with a packet. -/
theorem exists_cons (segment : Segment buffer pos packets stop) (nonempty : pos < stop) :
    ∃ packet rest, packets = packet :: rest ∧ blockLen buffer pos = packet.length ∧
      read buffer (4 * (pos + 1)) packet.length = packet ∧
      Segment buffer (pos + 1 + blockCount packet.length) rest stop := by
  cases segment with
  | nil =>
      omega
  | cons header data tail =>
      exact ⟨_, _, rfl, header, data, tail⟩

/-- A segment that holds a packet starts with it. -/
theorem cons_inv {packet : List UInt8} {rest : List (List UInt8)}
    (segment : Segment buffer pos (packet :: rest) stop) :
    blockLen buffer pos = packet.length ∧ read buffer (4 * (pos + 1)) packet.length = packet ∧
      Segment buffer (pos + 1 + blockCount packet.length) rest stop := by
  cases segment with
  | cons header data tail =>
      exact ⟨header, data, tail⟩

theorem append {middle : Int} {more : List (List UInt8)}
    (front : Segment buffer pos packets middle)
    (back : Segment buffer middle more stop) :
    Segment buffer pos (packets ++ more) stop := by
  induction front with
  | nil =>
      exact back
  | cons header data _ inductionHypothesis =>
      exact .cons header data (inductionHypothesis back)

/-- A segment is read from the bytes of its own blocks only. -/
theorem frame {other : Int → UInt8}
    (segment : Segment buffer pos packets stop)
    (agree : ∀ address, 4 * pos ≤ address → address < 4 * stop →
      other address = buffer address) :
    Segment other pos packets stop := by
  induction segment with
  | nil pos =>
      exact .nil pos
  | @cons pos stop packet rest header data tail inductionHypothesis =>
      have restEnds := tail.length_le
      have dataFits := le_four_mul_blockCount (Int.natCast_nonneg packet.length)
      apply Segment.cons
      · rw [blockLen, readInt32_congr fun address low high => agree address (by omega) (by omega)]
        exact header
      · rw [read_congr fun address low high => agree address (by omega) (by omega)]
        exact data
      · exact inductionHypothesis fun address low high => agree address (by omega) (by omega)

end Segment

/-! ## The representation invariant -/

/--
Where the queued packets lie: from `start` on while the data does not wrap;
once it wraps, from `start` to `wrap` and then from block 0 to the end.
-/
def Stored (buf : ChunkBuffer2) (packets : List (List UInt8)) : Prop :=
  if buf.used ≥ buf.wrap - buf.start then
    ∃ front back, packets = front ++ back ∧
      Segment buf.buffer buf.start front buf.wrap ∧ Segment buf.buffer 0 back buf.dataEnd
  else
    Segment buf.buffer buf.start packets (buf.start + buf.used)

/-- The bytes of the blocks that queued packets take. -/
def Occupied (buf : ChunkBuffer2) (address : Int) : Prop :=
  if buf.used ≥ buf.wrap - buf.start then
    4 * buf.start ≤ address ∧ address < 4 * buf.wrap ∨ 0 ≤ address ∧ address < 4 * buf.dataEnd
  else
    4 * buf.start ≤ address ∧ address < 4 * (buf.start + buf.used)

/--
The representation invariant of a buffer queueing `packets`, oldest first:
the checks of `_ChunkBuffer2_assert_buffer` and `_ChunkBuffer2_assert_io`, the
layout of the packets, and a size whose byte count fits an `int`.
-/
structure Holds (buf : ChunkBuffer2) (packets : List (List UInt8)) : Prop where
  buffer : buf.AssertBuffer
  small : buf.size ≤ 536870912
  io : buf.AssertIo
  stored : buf.Stored packets

variable {buf : ChunkBuffer2} {packets : List (List UInt8)}

/-- The checks of `_ChunkBuffer2_assert_buffer` read the indices only. -/
theorem AssertBuffer.congr
    {other : ChunkBuffer2}
    (bounds : buf.AssertBuffer)
    (size : other.size = buf.size)
    (wrap : other.wrap = buf.wrap)
    (start : other.start = buf.start)
    (used : other.used = buf.used)
    (mtu : other.mtu = buf.mtu) :
    other.AssertBuffer := by
  obtain ⟨sizePos, wrapPos, wrapLe, startNonneg, startLt, usedNonneg, usedLe, wrapped, mtuNonneg⟩ :=
    bounds
  rw [← size, ← wrap, ← start, ← used] at wrapped
  constructor <;> omega

/-- The end and the free run of wrapped data. -/
theorem dataEnd_free_of_wrapped (wrapped : buf.used ≥ buf.wrap - buf.start) :
    buf.dataEnd = buf.used - (buf.wrap - buf.start) ∧ buf.free = buf.start - buf.dataEnd := by
  unfold free dataEnd
  simp only [if_pos wrapped]
  trivial

/-- The end and the free run of data that does not wrap. -/
theorem dataEnd_free_of_unwrapped (unwrapped : ¬ buf.used ≥ buf.wrap - buf.start) :
    buf.dataEnd = buf.start + buf.used ∧ buf.free = buf.size - buf.dataEnd := by
  unfold free dataEnd
  simp only [if_neg unwrapped]
  trivial

/-- The end and the free run after it lie in the buffer. -/
theorem AssertBuffer.free_le (bounds : buf.AssertBuffer) :
    0 ≤ buf.dataEnd ∧ buf.free ≤ buf.size := by
  have := bounds.start_nonneg
  have := bounds.used_nonneg
  have := bounds.used_le
  have := bounds.wrap_le
  unfold free dataEnd
  split_ifs <;> omega

/-- Without overflow the window `update_input` sets is the one `assert_io` expects. -/
theorem inputWindow_eq_checkedInput (bounds : buf.AssertBuffer) (small : buf.size ≤ 536870912) :
    buf.inputWindow = buf.checkedInput := by
  have freeBound := bounds.free_le.2
  unfold inputWindow checkedInput
  split_ifs with closed positive
  · rfl
  · rw [toInt32_of_small (by omega) (by omega)]
  · rfl

/-- A layout is read from the occupied bytes only. -/
theorem Stored.frame {other : Int → UInt8}
    (stored : buf.Stored packets)
    (agree : ∀ address, buf.Occupied address → other address = buf.buffer address) :
    { buf with buffer := other }.Stored packets := by
  by_cases wrapped : buf.used ≥ buf.wrap - buf.start
  · simp only [Stored, Occupied, if_pos wrapped] at stored agree ⊢
    obtain ⟨front, back, split, frontSegment, backSegment⟩ := stored
    refine ⟨front, back, split, ?_, ?_⟩
    · exact frontSegment.frame fun address low high => agree address (.inl ⟨low, high⟩)
    · exact backSegment.frame fun address low high => agree address (.inr ⟨by omega, high⟩)
  · simp only [Stored, Occupied, if_neg wrapped] at stored agree ⊢
    exact stored.frame fun address low high => agree address ⟨low, high⟩

/-- A wrapped layout: packets from `start` to `wrap`, then from block 0 to the end. -/
theorem stored_of_wrapped
    {front back : List (List UInt8)}
    {stop : Int}
    (wrapped : buf.used ≥ buf.wrap - buf.start)
    (frontSegment : Segment buf.buffer buf.start front buf.wrap)
    (backSegment : Segment buf.buffer 0 back stop)
    (stopEq : stop = buf.used - (buf.wrap - buf.start)) :
    buf.Stored (front ++ back) := by
  have endEq := (dataEnd_free_of_wrapped wrapped).1
  unfold Stored
  rw [if_pos wrapped, endEq, ← stopEq]
  exact ⟨front, back, rfl, frontSegment, backSegment⟩

/-- A layout that does not wrap: packets from `start` on. -/
theorem stored_of_unwrapped
    {stop : Int}
    (unwrapped : buf.used < buf.wrap - buf.start)
    (segment : Segment buf.buffer buf.start packets stop)
    (stopEq : stop = buf.start + buf.used) :
    buf.Stored packets := by
  unfold Stored
  rw [if_neg (by omega), ← stopEq]
  exact segment

/-- A buffer that uses no block queues nothing. -/
theorem Stored.eq_nil (bounds : buf.AssertBuffer) (stored : buf.Stored packets) (empty : buf.used = 0) :
    packets = [] := by
  have unwrapped : ¬ buf.used ≥ buf.wrap - buf.start := by
    have := bounds.start_lt
    omega
  simp only [Stored, if_neg unwrapped] at stored
  exact stored.eq_nil (by omega)

/-- The oldest packet: its header at `start`, its data right after it. -/
theorem Stored.head (bounds : buf.AssertBuffer) (stored : buf.Stored packets) (nonempty : buf.used > 0) :
    ∃ packet rest, packets = packet :: rest ∧ blockLen buf.buffer buf.start = packet.length ∧
      read buf.buffer (4 * (buf.start + 1)) packet.length = packet ∧
      buf.start + 1 + blockCount packet.length ≤ buf.wrap ∧
      1 + blockCount packet.length ≤ buf.used := by
  have := bounds.start_lt
  by_cases wrapped : buf.used ≥ buf.wrap - buf.start
  · simp only [Stored, if_pos wrapped] at stored
    obtain ⟨front, back, rfl, frontSegment, -⟩ := stored
    obtain ⟨packet, rest, rfl, header, data, tail⟩ := frontSegment.exists_cons this
    have restEnds := tail.length_le
    exact ⟨packet, rest ++ back, rfl, header, data, by omega, by omega⟩
  · simp only [Stored, if_neg wrapped] at stored
    obtain ⟨packet, rest, rfl, header, data, tail⟩ := stored.exists_cons (by omega)
    have restEnds := tail.length_le
    exact ⟨packet, rest, rfl, header, data, by omega, by omega⟩

/-- The window `update_output` sets passes the output checks. -/
theorem outputChecked_of_window
    (bounds : buf.AssertBuffer)
    (stored : buf.Stored packets)
    (window : buf.output = buf.outputWindow) :
    buf.OutputChecked := by
  unfold OutputChecked
  split_ifs with nonempty
  · obtain ⟨packet, rest, -, header, -, fitsWrap, fitsUsed⟩ := stored.head bounds nonempty
    rw [window, outputWindow, if_pos nonempty, header]
    exact ⟨by omega, by omega, by omega, rfl⟩
  · rw [window, outputWindow, if_neg nonempty]

/-- The output check pins the output window to the one `update_output` computes. -/
theorem OutputChecked.eq_window (checked : buf.OutputChecked) : buf.output = buf.outputWindow := by
  unfold OutputChecked at checked
  unfold outputWindow
  split_ifs at checked ⊢ with nonempty
  · exact checked.2.2.2
  · exact checked

/-- The free run after the end holds no queued packet. -/
theorem AssertBuffer.not_occupied
    (bounds : buf.AssertBuffer)
    {address : Int}
    (low : 4 * buf.dataEnd ≤ address)
    (high : address < 4 * (buf.dataEnd + buf.free)) :
    ¬ buf.Occupied address := by
  have := bounds.start_lt
  by_cases wrapped : buf.used ≥ buf.wrap - buf.start
  · obtain ⟨endEq, freeEq⟩ := dataEnd_free_of_wrapped wrapped
    simp only [Occupied, if_pos wrapped]
    omega
  · obtain ⟨endEq, freeEq⟩ := dataEnd_free_of_unwrapped wrapped
    simp only [Occupied, if_neg wrapped]
    omega

/--
What the output window of a buffer queueing `packets` shows: nothing, or the
oldest packet with its length.
-/
def ExposesHead (buf : ChunkBuffer2) : List (List UInt8) → Prop
  | [] =>
      buf.output = .closed
  | packet :: _ =>
      buf.output = ⟨some (4 * (buf.start + 1)), packet.length⟩ ∧
        read buf.buffer (4 * (buf.start + 1)) packet.length = packet

/-- The header block of the oldest packet is occupied. -/
theorem AssertBuffer.occupied_start
    (bounds : buf.AssertBuffer)
    (nonempty : buf.used > 0)
    {address : Int}
    (low : 4 * buf.start ≤ address)
    (high : address < 4 * buf.start + 4) :
    buf.Occupied address := by
  have := bounds.start_lt
  unfold Occupied
  split_ifs
  · exact .inl ⟨low, by omega⟩
  · exact ⟨low, by omega⟩

/-- The output window reads only `used`, `start` and the header at `start`. -/
theorem outputWindow_congr
    {other : ChunkBuffer2}
    (used : buf.used > 0 ↔ other.used > 0)
    (start : buf.start = other.start)
    (header : blockLen buf.buffer buf.start = blockLen other.buffer other.start) :
    buf.outputWindow = other.outputWindow := by
  unfold outputWindow
  by_cases nonempty : buf.used > 0
  · rw [if_pos nonempty, if_pos (used.mp nonempty), header, start]
  · rw [if_neg nonempty, if_neg (mt used.mpr nonempty)]

/-- The input window reads only `size`, `mtu`, the end and the free run. -/
theorem inputWindow_congr
    {other : ChunkBuffer2}
    (size : buf.size = other.size)
    (mtu : buf.mtu = other.mtu)
    (dataEnd : buf.dataEnd = other.dataEnd)
    (free : buf.free = other.free) :
    buf.inputWindow = other.inputWindow := by
  unfold inputWindow
  rw [size, mtu, dataEnd, free]

/-- The invariant, from the geometry, the layout and windows that the updates compute. -/
theorem holds_of_windows
    (bounds : buf.AssertBuffer)
    (small : buf.size ≤ 536870912)
    (stored : buf.Stored packets)
    (input : buf.input = buf.inputWindow)
    (output : buf.output = buf.outputWindow) :
    buf.Holds packets where
  buffer := bounds
  small := small
  io := ⟨input.trans (inputWindow_eq_checkedInput bounds small),
    outputChecked_of_window bounds stored output⟩
  stored := stored

namespace Holds

variable (holds : buf.Holds packets)
include holds

theorem input_eq_window : buf.input = buf.inputWindow :=
  holds.io.input.trans (inputWindow_eq_checkedInput holds.buffer holds.small).symm

theorem output_eq_window : buf.output = buf.outputWindow :=
  holds.io.output.eq_window

/-- An open input window points after the end, over the free run but its header block. -/
theorem input_open {dest : Int} (inputOpen : buf.input.dest = some dest) :
    dest = 4 * (buf.dataEnd + 1) ∧ buf.input.avail = (buf.free - 1) * 4 ∧ 0 < buf.free ∧
      buf.mtu ≤ buf.size - buf.dataEnd - 1 := by
  have checked := holds.io.input
  unfold checkedInput at checked
  split_ifs at checked with closed positive
  · rw [checked] at inputOpen
    cases inputOpen
  · rw [checked] at inputOpen ⊢
    cases inputOpen
    exact ⟨rfl, rfl, positive, by omega⟩
  · rw [checked] at inputOpen
    cases inputOpen

/--
No byte that an input window hands out, its header block included, lies in a
block of a queued packet.
-/
theorem input_disjoint
    {dest : Int}
    (inputOpen : buf.input.dest = some dest)
    {address : Int}
    (low : dest - 4 ≤ address)
    (high : address < dest + buf.input.avail) :
    ¬ buf.Occupied address := by
  obtain ⟨destEq, availEq, _, _⟩ := holds.input_open inputOpen
  exact holds.buffer.not_occupied (by omega) (by omega)

/-- The output window exposes the oldest queued packet, or nothing when none is queued. -/
theorem exposesHead : buf.ExposesHead packets := by
  have window := holds.output_eq_window
  unfold outputWindow at window
  split_ifs at window with nonempty
  · obtain ⟨packet, rest, rfl, header, data, -⟩ := holds.stored.head holds.buffer nonempty
    rw [header] at window
    exact ⟨window, data⟩
  · have empty := holds.stored.eq_nil holds.buffer (by have := holds.buffer.used_nonneg; omega)
    subst empty
    exact window

end Holds

/-! ## Submitting a packet -/

/-- Whether `ChunkBuffer2_SubmitPacket` moves `wrap` to the new end. -/
def WrapsAfter (buf : ChunkBuffer2) (len : Int) : Prop :=
  buf.used + 1 + blockCount len ≤ buf.wrap - buf.start ∧
    buf.mtu > buf.size - (buf.dataEnd + 1 + blockCount len) - 1

instance (buf : ChunkBuffer2) (len : Int) : Decidable (buf.WrapsAfter len) :=
  inferInstanceAs (Decidable (_ ∧ _))

/-- The record `ChunkBuffer2_SubmitPacket` builds before it updates the windows. -/
def submitted (buf : ChunkBuffer2) (len : Int) : ChunkBuffer2 :=
  { buf with
    buffer := writeInt32 buf.buffer (4 * buf.dataEnd) len
    used := buf.used + 1 + blockCount len
    wrap := if buf.WrapsAfter len then buf.dataEnd + 1 + blockCount len else buf.wrap }

/-- `ChunkBuffer2_SubmitPacket` updates the output window only if the buffer was empty. -/
theorem submitPacket_eq (buf : ChunkBuffer2) (len : Int) :
    buf.submitPacket len =
      if buf.used = 0 then (buf.submitted len).updateInput.updateOutput
      else (buf.submitted len).updateInput := by
  unfold submitPacket submitted updateInput
  dsimp only
  -- decide the move of `wrap` first: the later test reads `used` through it
  by_cases wraps : buf.WrapsAfter len
  · have moved := wraps
    unfold WrapsAfter at moved
    simp only [if_pos moved, if_pos wraps]
    split_ifs <;> first | rfl | omega
  · have kept := wraps
    unfold WrapsAfter at kept
    simp only [if_neg kept, if_neg wraps]
    split_ifs <;> first | rfl | omega

theorem submitted_of_wraps {len : Int} (wraps : buf.WrapsAfter len) :
    buf.submitted len =
      { buf with
        buffer := writeInt32 buf.buffer (4 * buf.dataEnd) len
        used := buf.used + 1 + blockCount len
        wrap := buf.dataEnd + 1 + blockCount len } := by
  unfold submitted
  rw [if_pos wraps]

theorem submitted_of_not_wraps {len : Int} (kept : ¬ buf.WrapsAfter len) :
    buf.submitted len =
      { buf with
        buffer := writeInt32 buf.buffer (4 * buf.dataEnd) len
        used := buf.used + 1 + blockCount len } := by
  unfold submitted
  rw [if_neg kept]

/-- Submitting keeps the checks of `_ChunkBuffer2_assert_buffer`. -/
theorem submitted_assertBuffer
    {len : Int}
    (bounds : buf.AssertBuffer)
    (fits : blockCount len ≤ buf.free - 1) :
    (buf.submitted len).AssertBuffer := by
  have := bounds.size_pos
  have := bounds.start_nonneg
  have := bounds.start_lt
  have := bounds.used_nonneg
  have := bounds.used_le
  have := bounds.wrap_le
  have := bounds.wrapped
  have := bounds.mtu_nonneg
  have := blockCount_nonneg len
  -- the new packet ends inside the free run, which ends at `size` or at `start`
  have shape : (buf.used ≥ buf.wrap - buf.start ∧ buf.dataEnd = buf.used - (buf.wrap - buf.start) ∧
      buf.free = buf.start - buf.dataEnd) ∨
      (buf.used < buf.wrap - buf.start ∧ buf.dataEnd = buf.start + buf.used ∧
      buf.free = buf.size - buf.dataEnd) := by
    by_cases wrapped : buf.used ≥ buf.wrap - buf.start
    · exact .inl ⟨wrapped, dataEnd_free_of_wrapped wrapped⟩
    · exact .inr ⟨by omega, dataEnd_free_of_unwrapped wrapped⟩
  by_cases wraps : buf.WrapsAfter len
  · have moved := wraps
    unfold WrapsAfter at moved
    rw [submitted_of_wraps wraps]
    constructor <;> dsimp only <;> omega
  · have kept := wraps
    unfold WrapsAfter at kept
    rw [submitted_of_not_wraps wraps]
    constructor <;> dsimp only <;> omega

/--
Submitting appends the packet to the layout: its header goes into the end
block, its data (already written) follows, and the queued packets keep their
bytes.
-/
theorem Stored.submitted
    {packet : List UInt8}
    (bounds : buf.AssertBuffer)
    (small : buf.size ≤ 536870912)
    (stored : buf.Stored packets)
    (fits : blockCount packet.length ≤ buf.free - 1)
    (data : read buf.buffer (4 * (buf.dataEnd + 1)) packet.length = packet) :
    (buf.submitted packet.length).Stored (packets ++ [packet]) := by
  have := bounds.start_nonneg
  have := bounds.start_lt
  have := bounds.used_le
  have := bounds.wrap_le
  have := bounds.wrapped
  have := bounds.mtu_nonneg
  have endBounds := bounds.free_le
  have dataFits := le_four_mul_blockCount (Int.natCast_nonneg packet.length)
  let memory := writeInt32 buf.buffer (4 * buf.dataEnd) packet.length
  -- the header block is free, so the queued packets keep their bytes
  have framed : { buf with buffer := memory }.Stored packets :=
    stored.frame fun address occupied => by
      apply writeInt32_of_not_mem
      by_contra inHeader
      exact bounds.not_occupied (by omega) (by omega) occupied
  have newPacket :
      Segment memory buf.dataEnd [packet] (buf.dataEnd + 1 + blockCount packet.length) := by
    apply Segment.cons
    · exact readInt32_writeInt32 _ _ (by omega) (by omega)
    · show read (writeInt32 buf.buffer _ _) _ _ = _
      rw [writeInt32, read_write_of_disjoint _ (by simp only [length_le32]; omega)]
      exact data
    · exact .nil _
  by_cases wrapped : buf.used ≥ buf.wrap - buf.start
  · -- the free run ends at `start`: the packet joins the part from block 0
    obtain ⟨endEq, freeEq⟩ := dataEnd_free_of_wrapped wrapped
    have kept : ¬ buf.WrapsAfter packet.length := by
      unfold WrapsAfter
      omega
    simp only [Stored, if_pos wrapped] at framed
    obtain ⟨front, back, rfl, frontSegment, backSegment⟩ := framed
    rw [submitted_of_not_wraps kept, List.append_assoc]
    exact stored_of_wrapped (by dsimp only; omega) frontSegment
      (backSegment.append newPacket) (by dsimp only; omega)
  · -- the free run ends at `size`: the packet follows the others, and
    -- `wrap` moves to it when no MTU-sized packet fits after it any more
    obtain ⟨endEq, freeEq⟩ := dataEnd_free_of_unwrapped wrapped
    simp only [Stored, if_neg wrapped] at framed
    have appended := (endEq ▸ framed).append newPacket
    by_cases wraps : buf.WrapsAfter packet.length
    · have moved := wraps
      unfold WrapsAfter at moved
      rw [submitted_of_wraps wraps, ← List.append_nil (packets ++ [packet])]
      exact stored_of_wrapped (by dsimp only; omega) appended (.nil 0) (by dsimp only; omega)
    · have kept := wraps
      unfold WrapsAfter at kept
      rw [submitted_of_not_wraps wraps]
      exact stored_of_unwrapped (by dsimp only; omega) appended (by dsimp only; omega)

/--
`ChunkBuffer2_SubmitPacket`, once the packet is written at `input_dest`,
appends it to the queue.
-/
theorem Holds.submit
    {packet : List UInt8}
    {dest : Int}
    (holds : buf.Holds packets)
    (inputOpen : buf.input.dest = some dest)
    (fits : (packet.length : Int) ≤ buf.input.avail) :
    ({ buf with buffer := write buf.buffer dest packet }.submitPacket packet.length).Holds
      (packets ++ [packet]) := by
  obtain ⟨destEq, availEq, freePos, -⟩ := holds.input_open inputOpen
  have blocks : blockCount packet.length ≤ buf.free - 1 :=
    (blockCount_le_iff (Int.natCast_nonneg _) _).mpr (by omega)
  have endBounds := holds.buffer.free_le
  let written : ChunkBuffer2 := { buf with buffer := write buf.buffer dest packet }
  -- the data goes into the free run, so the queued packets keep their bytes
  have dataOutside : ∀ address, buf.Occupied address → written.buffer address = buf.buffer address :=
    fun address occupied => by
      apply write_of_not_mem
      by_contra inData
      exact holds.input_disjoint inputOpen (by omega) (by omega) occupied
  have data : read written.buffer (4 * (written.dataEnd + 1)) packet.length = packet := by
    show read (write buf.buffer dest packet) (4 * (buf.dataEnd + 1)) packet.length = packet
    rw [← destEq]
    exact read_write_self _ _ _
  have writtenBounds : written.AssertBuffer := holds.buffer.congr rfl rfl rfl rfl rfl
  have bounds : (written.submitted packet.length).AssertBuffer :=
    submitted_assertBuffer writtenBounds blocks
  have stored : (written.submitted packet.length).Stored (packets ++ [packet]) :=
    (holds.stored.frame dataOutside).submitted writtenBounds holds.small blocks data
  rw [submitPacket_eq]
  split_ifs with wasEmpty
  · exact holds_of_windows (bounds.congr rfl rfl rfl rfl rfl) holds.small stored rfl rfl
  · -- the output window still shows the oldest packet, whose header is untouched
    have nonempty : buf.used > 0 := by
      have notEmpty : buf.used ≠ 0 := wasEmpty
      have := holds.buffer.used_nonneg
      omega
    have header : blockLen buf.buffer buf.start =
        blockLen (written.submitted packet.length).buffer buf.start := by
      symm
      apply readInt32_congr
      intro address low high
      have occupied := holds.buffer.occupied_start nonempty low (by omega)
      show writeInt32 written.buffer (4 * buf.dataEnd) packet.length address = buf.buffer address
      rw [writeInt32_of_not_mem]
      · exact dataOutside address occupied
      · by_contra inHeader
        exact holds.buffer.not_occupied (by omega) (by omega) occupied
    refine holds_of_windows (bounds.congr rfl rfl rfl rfl rfl) holds.small stored rfl ?_
    refine holds.output_eq_window.trans (outputWindow_congr ?_ rfl header)
    show buf.used > 0 ↔ buf.used + 1 + blockCount packet.length > 0
    have := blockCount_nonneg packet.length
    omega

/-! ## Consuming a packet -/

/-- The record `ChunkBuffer2_ConsumePacket` builds before it updates the windows. -/
def consumed (buf : ChunkBuffer2) : ChunkBuffer2 :=
  let next := buf.start + 1 + blockCount (blockLen buf.buffer buf.start)
  { buf with
    start := if next = buf.wrap then 0 else next
    wrap := if next = buf.wrap then buf.size else buf.wrap
    used := buf.used - (1 + blockCount (blockLen buf.buffer buf.start)) }

/-- `ChunkBuffer2_ConsumePacket` updates the input window only if the data wrapped. -/
theorem consumePacket_eq (buf : ChunkBuffer2) :
    buf.consumePacket =
      (if buf.used ≥ buf.wrap - buf.start then buf.consumed.updateInput
        else buf.consumed).updateOutput := by
  unfold consumePacket consumed
  simp only [decide_eq_true_eq]
  split_ifs <;> rfl

theorem consumed_of_reset
    (reset : buf.start + 1 + blockCount (blockLen buf.buffer buf.start) = buf.wrap) :
    buf.consumed =
      { buf with
        start := 0
        wrap := buf.size
        used := buf.used - (1 + blockCount (blockLen buf.buffer buf.start)) } := by
  unfold consumed
  simp only [if_pos reset]

theorem consumed_of_not_reset
    (kept : ¬ buf.start + 1 + blockCount (blockLen buf.buffer buf.start) = buf.wrap) :
    buf.consumed =
      { buf with
        start := buf.start + 1 + blockCount (blockLen buf.buffer buf.start)
        used := buf.used - (1 + blockCount (blockLen buf.buffer buf.start)) } := by
  unfold consumed
  simp only [if_neg kept]

/-- Consuming keeps the checks of `_ChunkBuffer2_assert_buffer`. -/
theorem consumed_assertBuffer
    (bounds : buf.AssertBuffer)
    (fitsWrap : buf.start + 1 + blockCount (blockLen buf.buffer buf.start) ≤ buf.wrap)
    (fitsUsed : 1 + blockCount (blockLen buf.buffer buf.start) ≤ buf.used) :
    buf.consumed.AssertBuffer := by
  have := bounds.size_pos
  have := bounds.start_nonneg
  have := bounds.used_le
  have := bounds.wrap_le
  have := bounds.wrapped
  have := bounds.mtu_nonneg
  have := blockCount_nonneg (blockLen buf.buffer buf.start)
  by_cases reset : buf.start + 1 + blockCount (blockLen buf.buffer buf.start) = buf.wrap
  · rw [consumed_of_reset reset]
    constructor <;> dsimp only <;> omega
  · rw [consumed_of_not_reset reset]
    constructor <;> dsimp only <;> omega

/--
Consuming drops the oldest packet from the layout; when it was the last one
before `wrap`, the rest starts over at block 0 and no longer wraps.
-/
theorem Stored.consumed
    {packet : List UInt8}
    {rest : List (List UInt8)}
    (bounds : buf.AssertBuffer)
    (stored : buf.Stored (packet :: rest))
    (header : blockLen buf.buffer buf.start = packet.length) :
    buf.consumed.Stored rest := by
  have := bounds.size_pos
  have := bounds.start_nonneg
  have startLt := bounds.start_lt
  have := bounds.used_le
  have := bounds.wrap_le
  have := bounds.wrapped
  have := blockCount_nonneg packet.length
  by_cases wrapped : buf.used ≥ buf.wrap - buf.start
  · obtain ⟨endEq, -⟩ := dataEnd_free_of_wrapped wrapped
    simp only [Stored, if_pos wrapped] at stored
    obtain ⟨front, back, split, frontSegment, backSegment⟩ := stored
    obtain ⟨first, frontRest, rfl, -, -, tail⟩ := frontSegment.exists_cons startLt
    obtain ⟨rfl, rfl⟩ := List.cons_eq_cons.mp split
    have frontEnds := tail.length_le
    by_cases reset : buf.start + 1 + blockCount (blockLen buf.buffer buf.start) = buf.wrap
    · -- the packet was the last before `wrap`: what is left starts at block 0
      rw [header] at reset
      obtain rfl := tail.eq_nil (by omega)
      rw [consumed_of_reset (by rwa [header])]
      exact stored_of_unwrapped (by dsimp only; rw [header]; omega) backSegment
        (by dsimp only; rw [header]; omega)
    · rw [consumed_of_not_reset reset]
      rw [header] at reset ⊢
      exact stored_of_wrapped (by dsimp only; omega) tail backSegment (by dsimp only; omega)
  · simp only [Stored, if_neg wrapped] at stored
    obtain ⟨-, -, tail⟩ := stored.cons_inv
    have restEnds := tail.length_le
    have kept : ¬ buf.start + 1 + blockCount (blockLen buf.buffer buf.start) = buf.wrap := by
      rw [header]
      omega
    rw [consumed_of_not_reset kept]
    rw [header]
    exact stored_of_unwrapped (by dsimp only; omega) tail (by dsimp only; omega)

/-- An open output window means a packet is queued. -/
theorem Holds.used_pos
    (holds : buf.Holds packets)
    (outputOpen : buf.output.dest.isSome) :
    buf.used > 0 := by
  by_contra empty
  rw [holds.output_eq_window, outputWindow, if_neg empty] at outputOpen
  cases outputOpen

/-- Consuming moves indices only; the bytes stay. -/
theorem consumePacket_buffer (buf : ChunkBuffer2) : buf.consumePacket.buffer = buf.buffer := by
  rw [consumePacket_eq]
  split <;> rfl

/-- `ChunkBuffer2_ConsumePacket` drops the oldest packet from the queue. -/
theorem Holds.consume
    (holds : buf.Holds packets)
    (outputOpen : buf.output.dest.isSome) :
    buf.consumePacket.Holds packets.tail := by
  have nonempty : buf.used > 0 := holds.used_pos outputOpen
  obtain ⟨packet, rest, rfl, header, -, fitsWrap, fitsUsed⟩ := holds.stored.head holds.buffer nonempty
  rw [← header] at fitsWrap fitsUsed
  have bounds := consumed_assertBuffer holds.buffer fitsWrap fitsUsed
  have stored := holds.stored.consumed holds.buffer header
  have small : buf.consumed.size ≤ 536870912 := holds.small
  rw [consumePacket_eq]
  split_ifs with wrapped
  · exact holds_of_windows (bounds.congr rfl rfl rfl rfl rfl) small stored rfl rfl
  · -- the end has not moved, so the input window is still right
    refine holds_of_windows (bounds.congr rfl rfl rfl rfl rfl) small stored ?_ rfl
    have kept : ¬ buf.start + 1 + blockCount (blockLen buf.buffer buf.start) = buf.wrap := by
      omega
    have stillUnwrapped : ¬ buf.consumed.used ≥ buf.consumed.wrap - buf.consumed.start := by
      rw [consumed_of_not_reset kept]
      dsimp only
      omega
    obtain ⟨endEq, freeEq⟩ := dataEnd_free_of_unwrapped wrapped
    obtain ⟨endEq', freeEq'⟩ := dataEnd_free_of_unwrapped stillUnwrapped
    have sameEnd : buf.dataEnd = buf.consumed.dataEnd := by
      rw [endEq, endEq', consumed_of_not_reset kept]
      dsimp only
      omega
    have sameFree : buf.free = buf.consumed.free := by
      rw [freeEq, freeEq', sameEnd]
      rfl
    exact holds.input_eq_window.trans (inputWindow_congr rfl rfl sameEnd sameFree)

/-! ## The windows across writes, submits and consumes -/

/-- The invariant reads the memory at occupied bytes only. -/
theorem Holds.frame
    {other : Int → UInt8}
    (holds : buf.Holds packets)
    (agree : ∀ address, buf.Occupied address → other address = buf.buffer address) :
    { buf with buffer := other }.Holds packets := by
  -- the output window reads the header of the oldest packet, which is occupied
  have output : { buf with buffer := other }.outputWindow = buf.outputWindow := by
    by_cases nonempty : buf.used > 0
    · refine outputWindow_congr Iff.rfl rfl (readInt32_congr fun address low high => ?_)
      exact agree address (holds.buffer.occupied_start nonempty low (by omega))
    · unfold outputWindow
      simp only [if_neg nonempty]
  exact holds_of_windows (holds.buffer.congr rfl rfl rfl rfl rfl) holds.small
    (holds.stored.frame agree) holds.input_eq_window (holds.output_eq_window.trans output.symm)

/-- A store into the input window, its header block included, keeps the invariant. -/
theorem Holds.write_input
    {dest offset : Int}
    {bytes : List UInt8}
    (holds : buf.Holds packets)
    (inputOpen : buf.input.dest = some dest)
    (low : dest - 4 ≤ offset)
    (high : offset + bytes.length ≤ dest + buf.input.avail) :
    { buf with buffer := write buf.buffer offset bytes }.Holds packets := by
  refine holds.frame fun address occupied => write_of_not_mem _ ?_
  by_contra inside
  exact holds.input_disjoint inputOpen (by omega) (by omega) occupied

/-- A window with room is open. -/
theorem Holds.input_dest_of_avail
    (holds : buf.Holds packets)
    (room : 0 ≤ buf.input.avail) :
    ∃ dest, buf.input.dest = some dest := by
  have checked := holds.io.input
  unfold checkedInput at checked
  split_ifs at checked
  · rw [checked] at room
    simp [Window.closed] at room
  · exact ⟨_, by rw [checked]⟩
  · rw [checked] at room
    simp [Window.closed] at room

/--
`ChunkBuffer2_SubmitPacket` of a packet whose bytes are already at the open
input window appends those bytes to the queue.
-/
theorem Holds.submit_read
    {dest len : Int}
    (holds : buf.Holds packets)
    (inputOpen : buf.input.dest = some dest)
    (nonneg : 0 ≤ len)
    (fits : len ≤ buf.input.avail) :
    (buf.submitPacket len).Holds (packets ++ [read buf.buffer dest len.toNat]) := by
  have submitted : ({ buf with buffer := write buf.buffer dest (read buf.buffer dest len.toNat) }.submitPacket
      (read buf.buffer dest len.toNat).length).Holds (packets ++ [read buf.buffer dest len.toNat]) :=
    holds.submit inputOpen (by rw [length_read]; omega)
  rwa [write_read_self, length_read, Int.toNat_of_nonneg nonneg] at submitted

/-- Submitting to a buffer that holds a packet leaves the output window alone. -/
theorem submitPacket_output_of_used_pos
    (len : Int)
    (nonempty : buf.used > 0) :
    (buf.submitPacket len).output = buf.output := by
  rw [submitPacket_eq, if_neg (by omega)]
  rfl

/-- Consuming leaves the end where it is and does not shrink the free run after it. -/
theorem Holds.consumed_dataEnd_free
    (holds : buf.Holds packets)
    (nonempty : buf.used > 0) :
    buf.consumed.dataEnd = buf.dataEnd ∧ buf.free ≤ buf.consumed.free := by
  obtain ⟨packet, rest, -, header, -, fitsWrap, fitsUsed⟩ := holds.stored.head holds.buffer nonempty
  rw [← header] at fitsWrap fitsUsed
  have := holds.buffer.start_nonneg
  have := holds.buffer.start_lt
  have := holds.buffer.used_le
  have := holds.buffer.wrap_le
  have := holds.buffer.wrapped
  have := blockCount_nonneg (blockLen buf.buffer buf.start)
  by_cases reset : buf.start + 1 + blockCount (blockLen buf.buffer buf.start) = buf.wrap
  · rw [consumed_of_reset reset]
    unfold free dataEnd
    dsimp only
    split_ifs <;> omega
  · rw [consumed_of_not_reset reset]
    unfold free dataEnd
    dsimp only
    split_ifs <;> omega

/-- Consuming keeps an open input window where it is, and does not shrink it. -/
theorem Holds.consume_input
    {dest : Int}
    (holds : buf.Holds packets)
    (outputOpen : buf.output.dest.isSome)
    (inputOpen : buf.input.dest = some dest) :
    buf.consumePacket.input.dest = some dest ∧ buf.input.avail ≤ buf.consumePacket.input.avail := by
  have nonempty : buf.used > 0 := holds.used_pos outputOpen
  obtain ⟨destEq, availEq, freePos, roomy⟩ := holds.input_open inputOpen
  obtain ⟨sameEnd, moreFree⟩ := holds.consumed_dataEnd_free nonempty
  -- the updates of the windows leave the indices alone
  have indices : buf.consumePacket.dataEnd = buf.consumed.dataEnd ∧
      buf.consumePacket.free = buf.consumed.free ∧ buf.consumePacket.size = buf.size ∧
      buf.consumePacket.mtu = buf.mtu := by
    rw [consumePacket_eq]
    split <;> exact ⟨rfl, rfl, rfl, rfl⟩
  obtain ⟨endEq, freeEq, sizeEq, mtuEq⟩ := indices
  have checked := (holds.consume outputOpen).io.input
  unfold checkedInput at checked
  rw [endEq, freeEq, sizeEq, mtuEq, sameEnd, if_neg (by omega), if_pos (by omega)] at checked
  rw [checked]
  refine ⟨by rw [destEq], ?_⟩
  dsimp only
  omega

/-! ## Runs from `ChunkBuffer2_Init` -/

/-- `ChunkBuffer2_Init` gives an empty buffer; the invariant needs its byte size to fit an `int`. -/
theorem holds_init
    (memory : Int → UInt8)
    {blocks : Int}
    (mtu : Int)
    (positive : blocks > 0)
    (small : blocks ≤ 536870912) :
    (init memory blocks mtu).Holds [] := by
  have := blockCount_nonneg mtu
  have bounds : (init memory blocks mtu).AssertBuffer := by
    constructor <;> dsimp only [init, updateInput, updateOutput] <;> omega
  apply holds_of_windows bounds small ?_ rfl rfl
  exact stored_of_unwrapped (by dsimp only [init, updateInput, updateOutput]; omega) (.nil 0)
    (by dsimp only [init, updateInput, updateOutput]; omega)

/--
A fresh buffer with room for a packet of `mtu` bytes offers all of it but the
header block, as many bytes as an `int` keeps of that product.
-/
theorem init_input_eq
    (memory : Int → UInt8)
    {blocks : Int}
    (mtu : Int)
    (room : blockCount mtu < blocks) :
    (init memory blocks mtu).input = ⟨some 4, toInt32 ((blocks - 1) * 4)⟩ := by
  have := blockCount_nonneg mtu
  unfold init updateOutput updateInput inputWindow free dataEnd
  dsimp only
  -- an empty buffer ends at block 0, and all of it is free
  rw [if_neg (show ¬ (0 : Int) ≥ blocks - 0 by omega)]
  rw [if_neg (by omega), if_pos (by omega)]
  congr 3
  omega

/-- A fresh buffer with room for a packet of `mtu` bytes offers all of it but the header block. -/
theorem init_input
    (memory : Int → UInt8)
    {blocks : Int}
    (mtu : Int)
    (room : blockCount mtu < blocks)
    (small : blocks ≤ 536870912) :
    (init memory blocks mtu).input = ⟨some 4, (blocks - 1) * 4⟩ := by
  have := blockCount_nonneg mtu
  rw [init_input_eq memory mtu room, toInt32_of_small (by omega) (by omega)]

/--
What a user of the buffer does: write a packet at `input_dest` and submit
it, or consume the packet at `output_dest`.
-/
inductive Op
  | submit (packet : List UInt8)
  | consume
  deriving Repr, DecidableEq

/-- One step; `none` where the source asserts against the call. -/
def Op.step? : Op → ChunkBuffer2 → Option ChunkBuffer2
  | .submit packet, buf =>
      match buf.input.dest with
      | some dest =>
          if (packet.length : Int) ≤ buf.input.avail then
            some ({ buf with buffer := write buf.buffer dest packet }.submitPacket packet.length)
          else
            none
      | none =>
          none
  | .consume, buf =>
      if buf.output.dest.isSome then some buf.consumePacket else none

/-- The queue a step leaves: the FIFO of byte strings the buffer is for. -/
def Op.queueAfter (packets : List (List UInt8)) : Op → List (List UInt8)
  | .submit packet => packets ++ [packet]
  | .consume => packets.tail

/-- Run steps from `buf`; `none` once one of them is refused. -/
def run? (buf : ChunkBuffer2) : List Op → Option ChunkBuffer2
  | [] => some buf
  | op :: ops => (op.step? buf).bind fun next => next.run? ops

/-- Every accepted step refines the queue's step. -/
theorem Holds.step
    (holds : buf.Holds packets)
    {op : Op}
    {next : ChunkBuffer2}
    (stepped : op.step? buf = some next) :
    next.Holds (op.queueAfter packets) := by
  cases op with
  | submit packet =>
      simp only [Op.step?] at stepped
      split at stepped
      · rename_i dest inputOpen
        split_ifs at stepped with fits
        cases stepped
        exact holds.submit inputOpen fits
      · cases stepped
  | consume =>
      simp only [Op.step?] at stepped
      split_ifs at stepped with outputOpen
      cases stepped
      exact holds.consume outputOpen

/-- A whole run refines the queue's run. -/
theorem Holds.run?
    (holds : buf.Holds packets)
    {ops : List Op}
    {final : ChunkBuffer2}
    (ran : buf.run? ops = some final) :
    final.Holds (ops.foldl Op.queueAfter packets) := by
  induction ops generalizing buf packets with
  | nil =>
      cases ran
      exact holds
  | cons op ops inductionHypothesis =>
      obtain ⟨next, stepped, rest⟩ := Option.bind_eq_some_iff.mp ran
      exact inductionHypothesis (holds.step stepped) rest

/--
From `ChunkBuffer2_Init` of a buffer whose byte size fits an `int`, every run
of submits and consumes that the source's checks accept keeps the checks of
`_ChunkBuffer2_assert_buffer` and `_ChunkBuffer2_assert_io`; the buffer is a
FIFO queue of the packets submitted and not consumed, the output window shows
the oldest of them with its length and bytes, and no input window overlaps
the blocks of a queued packet.
-/
theorem init_run?_fifo
    (memory : Int → UInt8)
    {blocks : Int}
    (mtu : Int)
    (positive : blocks > 0)
    (small : blocks ≤ 536870912)
    {ops : List Op}
    {final : ChunkBuffer2}
    (ran : (init memory blocks mtu).run? ops = some final) :
    final.AssertBuffer ∧ final.AssertIo ∧ final.ExposesHead (ops.foldl Op.queueAfter []) ∧
      ∀ dest, final.input.dest = some dest → ∀ address, dest - 4 ≤ address →
        address < dest + final.input.avail → ¬ final.Occupied address := by
  have holds := (holds_init memory mtu positive small).run? ran
  exact ⟨holds.buffer, holds.io, holds.exposesHead,
    fun dest inputOpen address low high => holds.input_disjoint inputOpen low high⟩

-- `tests/chunkbuffer2_test.c`: sixteen blocks and a 16-byte MTU; after a
-- 4-byte and a 32-byte packet the input is at block 12 with 16 bytes, after a
-- third packet it is closed, and consuming two packets reopens it at block 1
example :
    ((init (fun _ => 0) 16 16).run? [.submit (List.replicate 4 7), .submit (List.replicate 32 8)]).map
      (fun buf => (buf.input, buf.output)) = some (⟨some 48, 16⟩, ⟨some 4, 4⟩) := by
  decide

example :
    ((init (fun _ => 0) 16 16).run? [.submit (List.replicate 4 7), .submit (List.replicate 32 8),
      .submit (List.replicate 16 9), .consume, .consume]).map
      (fun buf => (buf.input, buf.output)) = some (⟨some 4, 40⟩, ⟨some 48, 16⟩) := by
  decide

/--
At 536870913 blocks the free run of an empty buffer is 2147483648 bytes, one
past the largest `int`: `input_avail` wraps to -2147483648, and the check of
`_ChunkBuffer2_assert_io` fails right after `ChunkBuffer2_Init`.
-/
theorem init_inputAvail_overflow :
    (init (fun _ => 0) 536870913 0).input = ⟨some 4, -2147483648⟩ ∧
      (init (fun _ => 0) 536870913 0).checkedInput = ⟨some 4, 2147483648⟩ ∧
      ¬ (init (fun _ => 0) 536870913 0).AssertIo := by
  have input : (init (fun _ => 0) 536870913 0).input = ⟨some 4, -2147483648⟩ := by decide
  have expected : (init (fun _ => 0) 536870913 0).checkedInput = ⟨some 4, 2147483648⟩ := by
    decide
  refine ⟨input, expected, fun checked => ?_⟩
  have mismatch := checked.input
  rw [input, expected] at mismatch
  cases mismatch

end ChunkBuffer2

end Tun2SocksWinRT
