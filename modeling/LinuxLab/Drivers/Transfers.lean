import LinuxLab.Drivers.SensorSpi

/-!
# The transfers of a sensor read

The PIO loop of `read_temperature` cuts the receive buffer into chunks of at most 95
bytes.  The chunks tile the buffer, so what the controller puts there is what a single
transfer would have put there: the byte at offset `i` is the one the device sends after
`i + 1` others, the first of them in exchange for the command byte.
-/

namespace LinuxLab
namespace SensorSpi

open Lib

/-- The part of the receive buffer that a transfer fills. -/
def SpiTransfer.block (t : SpiTransfer) : Option (Nat × Nat) := t.rxBuf.map (·, t.len)

/-- The transfer of the command byte. -/
def commandTransfer : SpiTransfer := ⟨some [0xFA ||| 0x80], none, 1⟩

theorem transfers_addTail {msg : SpiMessage} {i : Nat} (h : i ∉ msg.queue) (t : SpiTransfer) :
    (msg.addTail i t).transfers = msg.transfers ++ [t] := by
  show (msg.queue ++ [i]).map (Function.update msg.txfers i t) = msg.queue.map msg.txfers ++ [t]
  rw [List.map_append, List.map_singleton, Function.update_self]
  congr 1
  apply List.map_congr_left
  intro j hj
  have hne : j ≠ i := fun e => h (e ▸ hj)
  exact Function.update_of_ne hne t msg.txfers

theorem transfers_dmaMessage (n : Nat) :
    (dmaMessage n).transfers = [commandTransfer, ⟨none, some 0, n⟩] := rfl

/-! ## The loop -/

/-- What holds each time the PIO loop for `n` bytes tests its condition: `chunks` are the
transfers it has added. -/
structure PioInvariant (n : Nat) (chunks : List SpiTransfer) (s : PioLoop) : Prop where
  remain : s.offset + s.remain = n
  queue : s.msg.queue = List.range s.i
  transfers : s.msg.transfers = commandTransfer :: chunks
  index : s.i = chunks.length + 1
  tiles : Tiles 0 s.offset (chunks.filterMap SpiTransfer.block)
  size : ∀ t ∈ chunks, t.rxBuf.isSome = true ∧ 1 ≤ t.len ∧ t.len ≤ 95
  count : chunks.length = (s.offset + 94) / 95
  full : 0 < s.remain → s.offset = 95 * chunks.length

theorem pioInvariant_start (n : Nat) : PioInvariant n [] ⟨n, 0, 1, commandMessage⟩ where
  remain := Nat.zero_add n
  queue := rfl
  transfers := rfl
  index := rfl
  tiles := rfl
  size := fun t ht => absurd ht List.not_mem_nil
  count := by
    show 0 = (0 + 94) / 95
    decide
  full := fun _ => rfl

theorem pioInvariant_step {n : Nat} {chunks : List SpiTransfer} {s : PioLoop}
    (h : PioInvariant n chunks s) (hpos : 0 < s.remain) :
    PioInvariant n (chunks ++ [⟨none, some s.offset, min s.remain 95⟩]) (pioStep s) := by
  have hchunk : (if s.remain > 95 then 95 else s.remain) = min s.remain 95 := by
    split <;> omega
  have hremain := h.remain
  have hcount := h.count
  have hfull := h.full hpos
  unfold pioStep
  rw [hchunk]
  constructor
  case remain =>
    show s.offset + min s.remain 95 + (s.remain - min s.remain 95) = n
    omega
  case queue =>
    show s.msg.queue ++ [s.i] = List.range (s.i + 1)
    rw [h.queue, List.range_succ]
  case transfers =>
    show (s.msg.addTail s.i _).transfers = _
    rw [transfers_addTail (by rw [h.queue]; exact List.not_mem_range_self), h.transfers]
    rfl
  case index =>
    show s.i + 1 = _
    rw [h.index, List.length_append, List.length_singleton]
  case tiles =>
    rw [List.filterMap_append]
    exact h.tiles.append ⟨rfl, rfl⟩
  case size =>
    intro t ht
    rcases List.mem_append.mp ht with ht | ht
    · exact h.size t ht
    · rw [List.mem_singleton.mp ht]
      exact ⟨rfl, by show 1 ≤ min s.remain 95; omega, by show min s.remain 95 ≤ 95; omega⟩
  case count =>
    show _ = (s.offset + min s.remain 95 + 94) / 95
    rw [List.length_append, List.length_singleton]
    omega
  case full =>
    intro hrest
    have hrest : 0 < s.remain - min s.remain 95 := hrest
    show s.offset + min s.remain 95 = 95 * _
    rw [List.length_append, List.length_singleton]
    omega

theorem pioInvariant_loop {n fuel : Nat} {chunks : List SpiTransfer} {s : PioLoop}
    (h : PioInvariant n chunks s) (hfuel : s.remain ≤ fuel) :
    ∃ chunks', PioInvariant n chunks' (pioLoop fuel s) ∧ (pioLoop fuel s).remain = 0 := by
  induction fuel generalizing chunks s with
  | zero => exact ⟨chunks, h, Nat.le_zero.mp hfuel⟩
  | succ fuel ih =>
    rw [pioLoop]
    by_cases hpos : s.remain > 0
    · rw [if_pos hpos]
      apply ih (pioInvariant_step h hpos)
      show s.remain - (if s.remain > 95 then 95 else s.remain) ≤ fuel
      split <;> omega
    · rw [if_neg hpos]
      exact ⟨chunks, h, by omega⟩

/-- The transfers that the PIO loop builds for `n` bytes. -/
theorem pioMessage_spec (n : Nat) :
    ∃ chunks, (pioMessage n).transfers = commandTransfer :: chunks ∧
      (pioMessage n).queue = List.range (chunks.length + 1) ∧
      Tiles 0 n (chunks.filterMap SpiTransfer.block) ∧
      (∀ t ∈ chunks, t.rxBuf.isSome = true ∧ 1 ≤ t.len ∧ t.len ≤ 95) ∧
      chunks.length = (n + 94) / 95 := by
  obtain ⟨chunks, h, hzero⟩ := pioInvariant_loop (pioInvariant_start n) (Nat.le_refl n)
  have hend : (pioLoop n ⟨n, 0, 1, commandMessage⟩).offset = n := by
    have := h.remain
    omega
  exact ⟨chunks, h.transfers, h.index ▸ h.queue, hend ▸ h.tiles, h.size, hend ▸ h.count⟩

/-! ## What the buffer holds -/

/-- Chunks that tile the buffer from `a` to `b` fill it with what the device sends. -/
theorem clock_tiles {stream : Nat → UInt8} {a b : Nat} {ts : List SpiTransfer}
    (hrx : ∀ t ∈ ts, t.rxBuf.isSome = true) (h : Tiles a b (ts.filterMap SpiTransfer.block))
    (mem : List UInt8) :
    clock stream (a + 1) ts (filled (fun i => stream (i + 1)) mem a) =
      filled (fun i => stream (i + 1)) mem b := by
  induction ts generalizing a with
  | nil =>
    have hab : a = b := h
    rw [hab]
    rfl
  | cons t ts ih =>
    obtain ⟨offset, hoffset⟩ := Option.isSome_iff_exists.mp (hrx t List.mem_cons_self)
    have hblock : t.block = some (offset, t.len) := by rw [SpiTransfer.block, hoffset]; rfl
    rw [List.filterMap_cons_some hblock] at h
    obtain ⟨rfl, hrest⟩ := h
    have hbytes : (List.range' (offset + 1) t.len).map stream =
        (List.range' offset t.len).map (fun i => stream (i + 1)) := by
      rw [Nat.add_comm offset 1, ← List.map_add_range', List.map_map]
      apply List.map_congr_left
      intro i _
      show stream (1 + i) = stream (i + 1)
      rw [Nat.add_comm]
    rw [clock, hoffset, hbytes]
    show clock stream _ ts (putAt _ offset _) = _
    rw [putAt_filled, Nat.add_right_comm]
    exact ih (fun u hu => hrx u (List.mem_cons_of_mem t hu)) hrest

theorem clock_command (stream : Nat → UInt8) {n : Nat} {ts : List SpiTransfer}
    (hrx : ∀ t ∈ ts, t.rxBuf.isSome = true) (h : Tiles 0 n (ts.filterMap SpiTransfer.block))
    (mem : List UInt8) :
    clock stream 0 (commandTransfer :: ts) mem = filled (fun i => stream (i + 1)) mem n :=
  clock_tiles hrx h mem

/-- In either mode the buffer holds the bytes behind the first one. -/
theorem receive_eq (dmaMode : Int) (n : Nat) (stream : Nat → UInt8) :
    receive dmaMode n stream = (List.range n).map (fun i => stream (i + 1)) := by
  have hfilled : filled (fun i => stream (i + 1)) (List.replicate n 0) n =
      (List.range n).map (fun i => stream (i + 1)) := by
    rw [filled, List.drop_replicate, Nat.sub_self, List.replicate_zero, List.append_nil]
  rw [← hfilled, receive, buildMessage]
  by_cases hmode : dmaMode ≠ 0
  · rw [if_pos hmode, transfers_dmaMessage]
    apply clock_command
    · intro t ht
      rw [List.mem_singleton.mp ht]
      rfl
    · exact ⟨rfl, Nat.zero_add n⟩
  · obtain ⟨chunks, htransfers, -, htiles, hsize, -⟩ := pioMessage_spec n
    rw [if_neg hmode, htransfers]
    exact clock_command stream (fun t ht => (hsize t ht).1) htiles _

/-- The three bytes that `read_temperature` looks at. -/
theorem take_receive (dmaMode : Int) (stream : Nat → UInt8) :
    (receive dmaMode targetByte stream).take 3 = [stream 1, stream 2, stream 3] := by
  rw [receive_eq, ← List.map_take, List.take_range]
  rfl

/-- Both buffers are allocated and the message is transferred. -/
def SpiRead.Succeeds (r : SpiRead) : Prop := r.txAlloc = true ∧ r.rxAlloc = true ∧ r.ret = 0

instance (r : SpiRead) : Decidable r.Succeeds := inferInstanceAs (Decidable (_ ∧ _ ∧ _))

/-- The sample of a read: the bytes that the device sends after the command byte. -/
def SpiRead.rawData (r : SpiRead) : List UInt8 := [r.stream 1, r.stream 2, r.stream 3]

theorem readTemperature_of_succeeds {r : SpiRead} (h : r.Succeeds) (dmaMode : Int)
    (c : Calibration) : readTemperature dmaMode c r = compensate c r.rawData := by
  obtain ⟨htx, hrx, hret⟩ := h
  unfold readTemperature
  rw [htx, hrx, hret, if_neg (by decide)]
  show (if (0 : Int) < 0 then -eIo else compensate c (if (0 : Int) = 0 then
    (receive dmaMode targetByte r.stream).take 3 else [0, 0, 0])) = _
  rw [if_neg (by decide), if_pos rfl, take_receive]
  rfl

theorem readTemperature_of_ret_neg {r : SpiRead} (htx : r.txAlloc = true) (hrx : r.rxAlloc = true)
    (hret : r.ret < 0) (dmaMode : Int) (c : Calibration) : readTemperature dmaMode c r = -eIo := by
  unfold readTemperature
  rw [htx, hrx, if_neg (by decide)]
  exact if_pos hret

theorem inInt_readTemperature (dmaMode : Int) (c : Calibration) (r : SpiRead) :
    InInt (readTemperature dmaMode c r) := by
  unfold readTemperature
  split
  · decide
  · show InInt (if r.ret < 0 then -eIo else compensate c _)
    by_cases hret : r.ret < 0
    · rw [if_pos hret]
      decide
    · rw [if_neg hret]
      exact IntExpr.inInt_run temperature

theorem readTemperature_mode (dmaMode dmaMode' : Int) (c : Calibration) (r : SpiRead) :
    readTemperature dmaMode c r = readTemperature dmaMode' c r := by
  unfold readTemperature
  rw [receive_eq dmaMode, receive_eq dmaMode']

/-- The transfers of the PIO mode are well formed for every length, and they read what the
single transfer of the DMA mode reads. -/
theorem pio_reads_as_dma (n : Nat) :
    ∃ chunks, (pioMessage n).transfers = commandTransfer :: chunks ∧
      Tiles 0 n (chunks.filterMap SpiTransfer.block) ∧
      (∀ offset, (chunks.filterMap SpiTransfer.block).countP (covers offset) =
        if offset < n then 1 else 0) ∧
      (∀ t ∈ chunks, t.rxBuf.isSome = true ∧ 1 ≤ t.len ∧ t.len ≤ 95) ∧
      chunks.length = (n + 94) / 95 ∧
      (n ≤ 1235 → ∀ i ∈ (pioMessage n).queue, i < 14) ∧
      (∀ dmaMode, dmaMode ≠ 0 → ∀ stream, receive 0 n stream = receive dmaMode n stream) ∧
      ∀ dmaMode, dmaMode ≠ 0 → ∀ c r, readTemperature 0 c r = readTemperature dmaMode c r := by
  obtain ⟨chunks, htransfers, hqueue, htiles, hsize, hcount⟩ := pioMessage_spec n
  refine ⟨chunks, htransfers, htiles, fun offset => ?_, hsize, hcount, ?_,
    fun dmaMode _ stream => ?_, fun dmaMode _ c r => readTemperature_mode 0 dmaMode c r⟩
  · rw [htiles.countP_covers]
    exact if_congr (and_iff_right (Nat.zero_le offset)) rfl rfl
  · intro hn i hi
    rw [hqueue, List.mem_range] at hi
    omega
  · rw [receive_eq 0, receive_eq dmaMode]

/-- The 512 bytes of `read_temperature` are six chunks. -/
theorem pio_reads_as_dma_targetByte :
    ∃ chunks, (pioMessage targetByte).transfers = commandTransfer :: chunks ∧
      chunks.length = 6 ∧ (∀ i ∈ (pioMessage targetByte).queue, i < 14) ∧
      ∀ stream, receive 0 targetByte stream = receive 1 targetByte stream := by
  obtain ⟨chunks, htransfers, -, -, -, hcount, hindex, hreceive, -⟩ := pio_reads_as_dma targetByte
  exact ⟨chunks, htransfers, hcount, hindex (by decide), hreceive 1 (by decide)⟩

end SensorSpi
end LinuxLab
