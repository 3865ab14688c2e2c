import BetterWebBrowser.Media.FlacEncoder
import BetterWebBrowser.Framework.Outcome
import Mathlib.Tactic.Ring

/-!
# FLAC packets and their inputs

The blocks of a run are the samples of its inputs, cut at the block size. Every frame is timed by
the input that its first sample came in.
-/

namespace BetterWebBrowser.Media

open Framework

namespace Encoder

/-- The samples of an input, quantized. -/
def Input.samples (input : Input) : List Int := (floats input.bytes).map quantize

def Input.frames (format : Format) (input : Input) : Nat := input.bytes.length / (format.channels * 4)

/-- What `encode` checks of an input. -/
structure Input.Accepted (format : Format) (input : Input) : Prop where
  nonempty : input.bytes ≠ []
  complete : format.channels * 4 ∣ input.bytes.length

section Sizes

variable {format : Format} {input : Input}

theorem length_floats (bytes : List UInt8) : (floats bytes).length = bytes.length / 4 := by
  induction bytes using floats.induct with
  | case1 a b c d bytes ih =>
    rw [floats, List.length_cons, ih]
    simp only [List.length_cons]
    omega
  | case2 bytes h =>
    rw [floats.eq_def]
    split
    · exact absurd rfl (h _ _ _ _ _)
    · rcases bytes with _ | ⟨a, _ | ⟨b, _ | ⟨c, _ | ⟨d, bytes⟩⟩⟩⟩
      · rfl
      · simp
      · simp
      · simp
      · exact absurd rfl (h a b c d bytes)

theorem Input.Accepted.frames_pos (h : input.Accepted format) : 0 < input.frames format := by
  have hchannels := format.channels_pos
  have hlength : 0 < input.bytes.length := List.length_pos_iff.mpr h.nonempty
  exact Nat.div_pos (Nat.le_of_dvd hlength h.complete) (by omega)

theorem Input.Accepted.length_samples (h : input.Accepted format) :
    input.samples.length = input.frames format * format.channels := by
  obtain ⟨frames, hframes⟩ := h.complete
  have hchannels := format.channels_pos
  have hcount : input.frames format = frames := by
    rw [Input.frames, hframes]
    exact Nat.mul_div_cancel_left _ (by omega)
  rw [Input.samples, List.length_map, length_floats, hcount, hframes]
  have hfour : format.channels * 4 * frames = 4 * (frames * format.channels) := by ring
  rw [hfour, Nat.mul_div_cancel_left _ (by omega)]

end Sizes

/-! ## States of a run -/

section Run

variable (backend : Format → List Int → Nat → List UInt8) (format : Format) (description : Option (List UInt8))

def start : Encoder := { format := format, description := description, offset := 0, pending := [], spans := [] }

/-- The encoder after some inputs and packets: every input is added, and blocks are taken when they are there. -/
inductive Reached : List Input → List Packet → Encoder → Prop
  | start : Reached [] [] (start format description)
  | append {inputs packets encoder} (input : Input) : Reached inputs packets encoder → input.Accepted format →
      Reached (inputs ++ [input]) packets (encoder.append input.bytes input.timestamp)
  | packet {inputs packets encoder encoder'} {frames : Nat} {cancelled : Bool} {next : Packet} :
      Reached inputs packets encoder → 0 < frames → frames * format.channels ≤ encoder.pending.length →
      packet backend encoder frames cancelled = .ok (next, encoder') → Reached inputs (packets ++ [next]) encoder'

end Run

def toSpan (format : Format) (entry : Input × Nat) : Span := ⟨entry.1.timestamp, entry.1.frames format, entry.2⟩

/-- The input of the first sample gives the timestamp, and the samples are what the frame is made of. -/
structure Timed (backend : Format → List Int → Nat → List UInt8) (format : Format) (inputs : List Input)
    (packet : Packet) : Prop where
  timestamp : ∃ input place, InputQueue.locate (Input.frames format) inputs packet.startSample = some (input, place) ∧
    packet.output.timestamp = input.timestamp + (place * 1000000 / format.rate : Nat)
  bytes : packet.output.bytes = backend format packet.samples packet.startSample

/-- What the encoder holds between two steps. -/
structure Holds (backend : Format → List Int → Nat → List UInt8) (format : Format) (inputs : List Input)
    (packets : List Packet) (encoder : Encoder) : Prop where
  sizes : encoder.format = format
  accepted : ∀ input ∈ inputs, input.Accepted format
  offset : encoder.offset ≤ InputQueue.total (Input.frames format) inputs
  spans : encoder.spans = (InputQueue.retained (Input.frames format) inputs encoder.offset).map (toSpan format)
  pending : encoder.pending = (inputs.flatMap Input.samples).drop (encoder.offset * format.channels)
  samples : packets.flatMap Packet.samples = (inputs.flatMap Input.samples).take (encoder.offset * format.channels)
  starts : ∀ front packet rest, packets = front ++ packet :: rest →
    packet.startSample * format.channels = (front.flatMap Packet.samples).length
  timed : ∀ packet ∈ packets, packet.startSample < InputQueue.total (Input.frames format) inputs ∧
    Timed backend format inputs packet

variable {backend : Format → List Int → Nat → List UInt8} {format : Format} {description : Option (List UInt8)}
  {inputs : List Input} {packets : List Packet} {encoder encoder' : Encoder}

theorem Holds.frames (h : Holds backend format inputs packets encoder) :
    (∀ input ∈ inputs, 0 < input.frames format) ∧
      ∀ input ∈ inputs, input.samples.length = input.frames format * format.channels :=
  ⟨fun input hmem => (h.accepted input hmem).frames_pos, fun input hmem => (h.accepted input hmem).length_samples⟩

theorem length_flatMap_samples (h : ∀ input ∈ inputs, input.samples.length = input.frames format * format.channels) :
    (inputs.flatMap Input.samples).length = InputQueue.total (Input.frames format) inputs * format.channels := by
  induction inputs with
  | nil => simp
  | cons input rest ih =>
    rw [List.flatMap_cons, List.length_append, ih fun other hmem => h other (List.mem_cons_of_mem _ hmem),
      h input (by simp), InputQueue.total_cons, Nat.add_mul]

theorem Holds.start : Holds backend format [] [] (Encoder.start format description) where
  sizes := rfl
  accepted := by simp
  offset := Nat.zero_le _
  spans := rfl
  pending := by simp [Encoder.start]
  samples := by simp [Encoder.start]
  starts := by simp
  timed := by simp

/-- Adding an input leaves what was written before as it is. -/
theorem Holds.append (h : Holds backend format inputs packets encoder) {input : Input} (hinput : input.Accepted format) :
    Holds backend format (inputs ++ [input]) packets (encoder.append input.bytes input.timestamp) := by
  have hle : encoder.offset * format.channels ≤ (inputs.flatMap Input.samples).length := by
    rw [length_flatMap_samples h.frames.2]
    exact Nat.mul_le_mul_right _ h.offset
  constructor
  · exact h.sizes
  · intro other hmem
    rcases List.mem_append.mp hmem with hmem | hmem
    · exact h.accepted other hmem
    · rw [List.mem_singleton.mp hmem]
      exact hinput
  · rw [InputQueue.total_append]
    exact h.offset.trans (Nat.le_add_right _ _)
  · show encoder.spans ++ [_] = _
    rw [Encoder.append, InputQueue.retained_append hinput.frames_pos h.offset, List.map_append, h.spans, h.sizes]
    rfl
  · show encoder.pending ++ input.samples = _
    rw [h.pending, List.flatMap_append, List.flatMap_singleton]
    exact (List.drop_append_of_le_length hle).symm
  · show packets.flatMap Packet.samples = ((inputs ++ [input]).flatMap Input.samples).take (encoder.offset * format.channels)
    rw [h.samples, List.flatMap_append]
    exact (List.take_append_of_le_length hle).symm
  · exact h.starts
  · intro packet hmem
    obtain ⟨hlt, htimed⟩ := h.timed packet hmem
    refine ⟨?_, ⟨?_, htimed.bytes⟩⟩
    · rw [InputQueue.total_append]
      exact hlt.trans_le (Nat.le_add_right _ _)
    · rw [InputQueue.locate_append hlt]
      exact htimed.timestamp

theorem checkedAddI64_some {a b sum : Int} (h : checkedAddI64 a b = some sum) : sum = a + b := by
  rw [checkedAddI64] at h
  split at h
  · exact (Option.some.inj h).symm
  · cases h

/-- What a packet is, by the span in front. -/
structure Taken (backend : Format → List Int → Nat → List UInt8) (encoder : Encoder) (frames : Nat) (next : Packet)
    (span : Span) : Prop where
  samples : next.samples = encoder.pending.take (frames * encoder.format.channels)
  startSample : next.startSample = encoder.offset
  timestamp : next.output.timestamp = span.timestamp + (span.consumed * 1000000 / encoder.format.rate : Nat)
  bytes : next.output.bytes = backend encoder.format next.samples encoder.offset

theorem packet_ok {frames : Nat} {cancelled : Bool} {next : Packet}
    (h : packet backend encoder frames cancelled = .ok (next, encoder')) :
    ∃ span rest spans, encoder.spans = span :: rest ∧ consumeSpans encoder.spans frames = some spans ∧
      Taken backend encoder frames next span ∧
      encoder' = { encoder with
        description := none
        offset := encoder.offset + frames
        pending := encoder.pending.drop (frames * encoder.format.channels)
        spans := spans } := by
  rw [Encoder.packet] at h
  split at h
  · cases h
  · split at h
    · cases h
    · cases hspans : encoder.spans with
      | nil =>
        rw [hspans] at h
        cases h
      | cons span rest =>
        rw [hspans] at h
        dsimp only at h
        split at h
        · cases h
        · rename_i timestamp htimestamp
          split at h
          · cases h
          · rename_i spans hconsume
            cases h
            exact ⟨span, rest, spans, rfl, hconsume, ⟨rfl, rfl, checkedAddI64_some htimestamp, rfl⟩, rfl⟩

/-- The spans are consumed as the queue of inputs is. -/
theorem consumeSpans_map (queue : List (Input × Nat)) (count : Nat) :
    consumeSpans (queue.map (toSpan format)) count =
      (InputQueue.consume (Input.frames format) queue count).map (List.map (toSpan format)) := by
  induction queue generalizing count with
  | nil => cases count <;> rfl
  | cons entry queue ih =>
    cases count with
    | zero => rfl
    | succ count =>
      rw [List.map_cons, consumeSpans, InputQueue.consume]
      by_cases hused : entry.2 + min (count + 1) (entry.1.frames format - entry.2) = entry.1.frames format
      · rw [if_pos hused, if_pos (by exact hused)]
        exact ih _
      · rw [if_neg hused, if_neg (by exact hused)]
        rfl

theorem length_samples_taken (h : Holds backend format inputs packets encoder) :
    (packets.flatMap Packet.samples).length = encoder.offset * format.channels := by
  rw [h.samples, List.length_take, length_flatMap_samples h.frames.2]
  exact Nat.min_eq_left (Nat.mul_le_mul_right _ h.offset)

/-- A packet has the next frames, timed by the input that the first of them is in. -/
theorem Holds.packet (h : Holds backend format inputs packets encoder) {frames : Nat} {cancelled : Bool} {next : Packet}
    (hframes : 0 < frames) (hpending : frames * format.channels ≤ encoder.pending.length)
    (hpacket : packet backend encoder frames cancelled = .ok (next, encoder')) :
    Holds backend format inputs (packets ++ [next]) encoder' := by
  have htotal : encoder.offset + frames ≤ InputQueue.total (Input.frames format) inputs := by
    rw [h.pending, List.length_drop, length_flatMap_samples h.frames.2, ← Nat.sub_mul] at hpending
    have hle := Nat.le_of_mul_le_mul_right hpending format.channels_pos
    omega
  have hlt : encoder.offset < InputQueue.total (Input.frames format) inputs := by omega
  obtain ⟨input, place, rest, hhead, hlocate⟩ := InputQueue.head_retained hlt
  have hspans : encoder.spans = toSpan format (input, place) :: rest.map (toSpan format) := by
    rw [h.spans, hhead, List.map_cons]
  have hconsume : consumeSpans encoder.spans frames =
      some ((InputQueue.retained (Input.frames format) inputs (encoder.offset + frames)).map (toSpan format)) := by
    rw [h.spans, consumeSpans_map, InputQueue.consume_retained h.frames.1 htotal]
    rfl
  obtain ⟨span, _, spans, hspan, hleft, hnext, hencoder⟩ := packet_ok hpacket
  obtain rfl : span = toSpan format (input, place) := (List.cons.inj (hspan.symm.trans hspans)).1
  obtain rfl := Option.some.inj (hleft.symm.trans hconsume)
  have hstart := hnext.startSample
  have htaken : next.samples = ((inputs.flatMap Input.samples).drop (encoder.offset * format.channels)).take
      (frames * format.channels) := by
    rw [hnext.samples, h.sizes, h.pending]
  subst hencoder
  constructor
  · exact h.sizes
  · exact h.accepted
  · exact htotal
  · rfl
  · show encoder.pending.drop _ = _
    rw [h.sizes, h.pending, List.drop_drop, Nat.add_mul]
  · show _ = (inputs.flatMap Input.samples).take ((encoder.offset + frames) * format.channels)
    rw [List.flatMap_append, List.flatMap_singleton, h.samples, htaken, Nat.add_mul, List.take_add]
  · intro front packet later hsplit
    rcases List.eq_nil_or_concat later with rfl | ⟨later, last, rfl⟩
    · obtain ⟨rfl, hlast⟩ := List.append_inj' hsplit rfl
      cases hlast
      rw [hstart, length_samples_taken h]
    · have hfront : packets = front ++ packet :: later := by
        rw [List.concat_eq_append, ← List.cons_append, ← List.append_assoc] at hsplit
        exact (List.append_inj' hsplit rfl).1
      exact h.starts front packet later hfront
  · intro packet hmem
    rcases List.mem_append.mp hmem with hmem | hmem
    · exact h.timed packet hmem
    · rw [List.mem_singleton.mp hmem, hstart]
      refine ⟨hlt, ⟨⟨input, place, ?_, ?_⟩, ?_⟩⟩
      · rw [hstart, hlocate]
      · rw [hnext.timestamp, h.sizes]
        rfl
      · rw [hnext.bytes, h.sizes, hstart]

theorem Reached.holds (h : Reached backend format description inputs packets encoder) :
    Holds backend format inputs packets encoder := by
  induction h with
  | start => exact Holds.start
  | append input _ hinput ih => exact ih.append hinput
  | packet _ hframes hpending hpacket ih => exact ih.packet hframes hpending hpacket

/-! ## Calls -/

/-- Blocks that are taken are full, and what stays is less than a block. -/
theorem packets_reached {fuel : Nat} {cancelled : Nat → Bool} {next : List Packet}
    (h : Reached backend format description inputs packets encoder)
    (hnext : Encoder.packets backend fuel encoder cancelled = .ok (next, encoder')) :
    Reached backend format description inputs (packets ++ next) encoder' ∧
      (∀ packet ∈ next, packet.samples.length = format.blockSize * format.channels) ∧
      (encoder.pending.length ≤ fuel → encoder'.pending.length / format.channels < format.blockSize) := by
  induction fuel generalizing packets encoder next cancelled with
  | zero =>
    cases hnext
    rw [List.append_nil]
    refine ⟨h, by simp, fun hle => ?_⟩
    rw [Nat.le_zero.mp hle, Nat.zero_div]
    exact format.blockSize_pos
  | succ fuel ih =>
    rw [Encoder.packets, h.holds.sizes] at hnext
    split at hnext
    · rename_i hblock
      obtain ⟨⟨first, between⟩, hfirst, hnext⟩ := bind_eq_ok.mp hnext
      obtain ⟨⟨rest, after⟩, hrest, hnext⟩ := bind_eq_ok.mp hnext
      cases hnext
      have hpending : format.blockSize * format.channels ≤ encoder.pending.length :=
        (Nat.le_div_iff_mul_le format.channels_pos).mp hblock
      have hreached := h.packet format.blockSize_pos hpending hfirst
      obtain ⟨span, _, _, _, _, htaken, rfl⟩ := packet_ok hfirst
      obtain ⟨hend, hfull, hless⟩ := ih hreached hrest
      refine ⟨?_, ?_, ?_⟩
      · rw [List.append_cons]
        exact hend
      · intro packet hmem
        rcases List.mem_cons.mp hmem with rfl | hmem
        · rw [htaken.samples, h.holds.sizes, List.length_take]
          exact Nat.min_eq_left hpending
        · exact hfull packet hmem
      · intro hle
        refine hless ?_
        rw [h.holds.sizes, List.length_drop]
        have hpos := Nat.mul_pos format.blockSize_pos format.channels_pos
        omega
    · rename_i hblock
      cases hnext
      rw [List.append_nil]
      exact ⟨h, by simp, fun _ => Nat.lt_of_not_le hblock⟩

/-- Encoding an input adds it and takes full blocks until less than one is there. -/
theorem encode_reached {input : Input} {next : List Packet}
    (h : Reached backend format description inputs packets encoder)
    (hnext : encode backend encoder input.bytes input.timestamp input.cancelled = .ok (next, encoder')) :
    Reached backend format description (inputs ++ [input]) (packets ++ next) encoder' ∧
      (∀ packet ∈ next, packet.samples.length = format.blockSize * format.channels) ∧
      encoder'.pending.length / format.channels < format.blockSize := by
  rw [Encoder.encode, h.holds.sizes] at hnext
  split at hnext
  · cases hnext
  · split at hnext
    · cases hnext
    · rename_i haccepted
      split at hnext
      · cases hnext
      · have hinput : input.Accepted format := by
          constructor
          · exact fun hempty => haccepted (.inl hempty)
          · exact Decidable.not_not.mp fun hpartial => haccepted (.inr (.inr hpartial))
        obtain ⟨hreached, hfull, hless⟩ := packets_reached (h.append input hinput) hnext
        exact ⟨hreached, hfull, hless le_rfl⟩

theorem encodeAll_reached {later : List Input} {next : List Packet}
    (h : Reached backend format description inputs packets encoder)
    (hless : encoder.pending.length / format.channels < format.blockSize)
    (hnext : encodeAll backend encoder later = .ok (next, encoder')) :
    Reached backend format description (inputs ++ later) (packets ++ next) encoder' ∧
      (∀ packet ∈ next, packet.samples.length = format.blockSize * format.channels) ∧
      encoder'.pending.length / format.channels < format.blockSize := by
  induction later generalizing inputs packets encoder next with
  | nil =>
    cases hnext
    rw [List.append_nil, List.append_nil]
    exact ⟨h, by simp, hless⟩
  | cons input later ih =>
    rw [encodeAll] at hnext
    obtain ⟨⟨first, between⟩, hfirst, hnext⟩ := bind_eq_ok.mp hnext
    obtain ⟨⟨rest, after⟩, hrest, hnext⟩ := bind_eq_ok.mp hnext
    cases hnext
    obtain ⟨hreached, hfull, hbetween⟩ := encode_reached h hfirst
    obtain ⟨hend, hfullRest, hafter⟩ := ih hreached hbetween hrest
    rw [List.append_assoc, List.append_assoc] at hend
    refine ⟨hend, fun packet hmem => ?_, hafter⟩
    rcases List.mem_append.mp hmem with hmem | hmem
    · exact hfull packet hmem
    · exact hfullRest packet hmem

/-- What is pending is made of whole frames. -/
theorem Holds.channels_dvd (h : Holds backend format inputs packets encoder) :
    format.channels ∣ encoder.pending.length := by
  rw [h.pending, List.length_drop, length_flatMap_samples h.frames.2, ← Nat.sub_mul]
  exact Nat.dvd_mul_left _ _

/-- Flushing makes one shorter packet of all that is pending, or none. -/
theorem flush_reached {cancelled : Bool} {last : List Packet}
    (h : Reached backend format description inputs packets encoder)
    (hless : encoder.pending.length / format.channels < format.blockSize)
    (hlast : flush backend encoder cancelled = .ok (last, encoder')) :
    Reached backend format description inputs (packets ++ last) encoder' ∧ encoder'.pending = [] ∧ last.length ≤ 1 ∧
      ∀ packet ∈ last, ∃ frames < format.blockSize, packet.samples.length = frames * format.channels := by
  have hwhole := Nat.div_mul_cancel h.holds.channels_dvd
  rw [Encoder.flush, h.holds.sizes] at hlast
  dsimp only at hlast
  split at hlast
  · rename_i hnone
    cases hlast
    have hpending : encoder.pending = [] := by
      rw [hnone, Nat.zero_mul] at hwhole
      exact List.length_eq_zero_iff.mp hwhole.symm
    rw [List.append_nil]
    exact ⟨h, hpending, by simp, by simp⟩
  · rename_i hsome
    obtain ⟨⟨packet, after⟩, hpacket, hlast⟩ := bind_eq_ok.mp hlast
    cases hlast
    have hreached := h.packet (Nat.pos_of_ne_zero hsome) hwhole.le hpacket
    obtain ⟨span, _, _, _, _, htaken, rfl⟩ := packet_ok hpacket
    refine ⟨hreached, ?_, by simp, ?_⟩
    · rw [h.holds.sizes, hwhole, List.drop_length]
    · intro other hmem
      rw [List.mem_singleton.mp hmem, htaken.samples, h.holds.sizes, hwhole, List.take_length]
      exact ⟨_, hless, hwhole.symm⟩

/-- The blocks are the quantized inputs, every one is full but the last, the frames are numbered and
timed by the inputs, and between any two steps the pending samples are those of the retained spans. -/
theorem packetization {last : List Packet} {cancelled : Bool}
    (hencode : encodeAll backend (Encoder.start format description) inputs = .ok (packets, encoder))
    (hflush : flush backend encoder cancelled = .ok (last, encoder')) :
    (packets ++ last).flatMap Packet.samples = inputs.flatMap Input.samples ∧
      (∀ packet ∈ packets, packet.samples.length = format.blockSize * format.channels) ∧
      last.length ≤ 1 ∧
      (∀ packet ∈ last, ∃ frames < format.blockSize, packet.samples.length = frames * format.channels) ∧
      (∀ front packet rest, packets ++ last = front ++ packet :: rest →
        packet.startSample * format.channels = (front.flatMap Packet.samples).length) ∧
      (∀ packet ∈ packets ++ last, Timed backend format inputs packet) ∧
      ∀ before written between, Reached backend format description before written between →
        between.spans =
            (InputQueue.retained (Input.frames format) before between.offset).map (toSpan format) ∧
          between.offset * format.channels = (written.flatMap Packet.samples).length ∧
          between.pending = (InputQueue.retained (Input.frames format) before between.offset).flatMap fun entry =>
            entry.1.samples.drop (entry.2 * format.channels) := by
  have hstart : (Encoder.start format description).pending.length / format.channels < format.blockSize := by
    rw [Encoder.start, List.length_nil, Nat.zero_div]
    exact format.blockSize_pos
  have hfirst : Reached backend format description [] [] (Encoder.start format description) := .start
  obtain ⟨hreached, hfull, hless⟩ := encodeAll_reached hfirst hstart hencode
  obtain ⟨hend, hempty, hone, hshort⟩ := flush_reached hreached hless hflush
  have hholds := hend.holds
  refine ⟨?_, hfull, hone, hshort, hholds.starts, fun packet hmem => (hholds.timed packet hmem).2, ?_⟩
  · have hdone : ([] ++ inputs).flatMap Input.samples = ([] ++ packets ++ last).flatMap Packet.samples := by
      rw [hholds.samples]
      refine (List.take_of_length_le ?_).symm
      rw [← List.drop_eq_nil_iff, ← hholds.pending, hempty]
    exact hdone.symm
  · intro before written between hbetween
    have hstate := hbetween.holds
    refine ⟨hstate.spans, (length_samples_taken hstate).symm, ?_⟩
    rw [hstate.pending, InputQueue.flatMap_retained hstate.frames.2]

/-- Blocks of two frames. -/
def twoFrames : Format := ⟨48000, 1, 2, by decide, Nat.one_pos, Nat.two_pos⟩

/-- 1.0 in one input, -1.0 and 0.5 in the next. -/
def twoInputs : List Input :=
  [⟨[0, 0, 0x80, 0x3f], 0, fun _ => false⟩, ⟨[0, 0, 0x80, 0xbf, 0, 0, 0, 0x3f], 21, fun _ => false⟩]

def sizes (_ : Format) (samples : List Int) (start : Nat) : List UInt8 := [samples.length.toUInt8, start.toUInt8]

theorem packetization_two_inputs : ∃ packets encoder last encoder',
    encodeAll sizes (Encoder.start twoFrames none) twoInputs = .ok (packets, encoder) ∧
      flush sizes encoder false = .ok (last, encoder') ∧
      (packets ++ last).flatMap Packet.samples = [8388607, -8388608, 4194304] := by
  have hrun : (encodeAll sizes (Encoder.start twoFrames none) twoInputs >>= fun run =>
      flush sizes run.2 false).isOk = true := by decide
  cases hencode : encodeAll sizes (Encoder.start twoFrames none) twoInputs with
  | error error =>
    rw [hencode] at hrun
    cases hrun
  | ok run =>
    rw [hencode] at hrun
    cases hflush : flush sizes run.2 false with
    | error error =>
      have hend : (flush sizes run.2 false).isOk = true := hrun
      rw [hflush] at hend
      cases hend
    | ok ending =>
      have hsamples : twoInputs.flatMap Input.samples = [8388607, -8388608, 4194304] := by decide
      exact ⟨run.1, run.2, ending.1, ending.2, rfl, hflush, (packetization hencode hflush).1.trans hsamples⟩

end Encoder

end BetterWebBrowser.Media
