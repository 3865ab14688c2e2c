import BetterWebBrowser.WebmOpus.Timeline

/-!
# Admitting the packets of a WebM Opus track

The demuxer's packets are counted against the blocks, and each block's window is cut into those of
its packets. The demuxer and the Opus parser are parameters.
-/

namespace BetterWebBrowser.WebmOpus

open Framework

structure Limits where
  maxPackets : Nat
  maxEncodedBytes : Nat
  maxDurationFrames : Nat
  maxDecodedBytes : Nat

structure Metadata where
  number : Nat
  channels : UInt16
  preSkip : UInt16
  scaleNs : UInt64
  unknownSegment : Bool
  unknownCluster : Bool
  blocks : List Block

structure Packet where
  data : List UInt8
  frames : Nat
  left : Nat
  right : Nat
  gap : Nat
deriving DecidableEq, Repr

structure Admitted where
  packets : List Packet
  frames : Nat

/-- A packet of the demuxer. -/
structure Demuxed where
  trackId : Nat
  data : List UInt8

/-- An answer of the demuxer's `next_packet` before the end. -/
inductive Next
  | packet (packet : Demuxed)
  | unexpectedEof
  | failed (error : String)

/-- The Opus functions: whether a packet can be parsed, and its duration at 48 kHz. -/
structure OpusParser where
  parse : List UInt8 → Except String Unit
  nbSamples : List UInt8 → Except String Nat

def bound (frames : Nat) (channels : UInt16) (limits : Limits) : Except (Fault String) Unit :=
  failIf (min limits.maxDurationFrames (48000 * 3600) < frames ∨ 2 ^ 64 ≤ frames * channels.toNat ∨
      2 ^ 64 ≤ frames * channels.toNat * 4 ∨ limits.maxDecodedBytes < frames * channels.toNat * 4)
    (.Returned "WebM Opus PCM exceeds its byte or duration limit")

/-- What is counted over all blocks. -/
structure Totals where
  packets : Nat
  encoded : Nat

section Admission

variable (opus : OpusParser) (metadata : Metadata) (limits : Limits)

/-- `next_packet` inside of a block -/
def demux : List Next → Except (Fault String) (Demuxed × List Next)
  | [] => .error (.Returned "WebM Opus block packet count is incomplete")
  | .unexpectedEof :: _ => .error (.Returned "demux WebM Opus block: unexpected end of file")
  | .failed error :: _ => .error (.Returned ("demux WebM Opus block: " ++ error))
  | .packet packet :: rest => .ok (packet, rest)

/-- One packet and its duration. -/
def nextPacket (totals : Totals) (reader : List Next) :
    Except (Fault String) ((List UInt8 × Nat) × Totals × List Next) := do
  failIf (min limits.maxPackets 16384 ≤ totals.packets) (.Returned "WebM Opus exceeds its packet count limit")
  let (packet, reader) ← demux reader
  failIf (packet.trackId ≠ metadata.number ∨ packet.data = [] ∨ 61440 < packet.data.length)
    (.Returned "WebM Opus packet is empty, oversized, or belongs to another track")
  let encoded ← orError "WebM Opus packet storage exceeds source limit" (checkedAdd 64 totals.encoded packet.data.length)
  failIf (limits.maxEncodedBytes < encoded) (.Returned "WebM Opus packet storage exceeds source limit")
  (opus.parse packet.data).mapError fun error => .Returned ("invalid WebM Opus packet: " ++ error)
  let frames ← (opus.nbSamples packet.data).mapError fun error => .Returned ("invalid WebM Opus duration: " ++ error)
  failIf (frames = 0 ∨ 5760 < frames) (.Returned "WebM Opus packet exceeds 120 ms")
  return ((packet.data, frames), ⟨totals.packets + 1, encoded⟩, reader)

/-- The packets of a block and their duration. -/
def blockPackets : Nat → Nat → Totals → List Next →
    Except (Fault String) (List (List UInt8 × Nat) × Nat × Totals × List Next)
  | 0, rawFrames, totals, reader => .ok ([], rawFrames, totals, reader)
  | count + 1, rawFrames, totals, reader => do
    let (packet, totals, reader) ← nextPacket opus metadata limits totals reader
    let rawFrames ← orError "WebM Opus raw duration overflows" (checkedAdd 64 rawFrames packet.2)
    let (packets, rawFrames, totals, reader) ← blockPackets count rawFrames totals reader
    return (packet :: packets, rawFrames, totals, reader)

/-- The window of a block, cut into those of its packets; the first one has the gap. -/
def distribute (window : Window) : (gap offset : Nat) → List (List UInt8 × Nat) → Except (Fault String) (List Packet)
  | _, _, [] => .ok []
  | gap, offset, (data, frames) :: packets => do
    let ending ← orPanic (unsignedWord 64 (offset + frames))
    let left := min (window.left - offset) frames
    let right := max (min window.right ending - offset) left
    let rest ← distribute window 0 ending packets
    return ⟨data, frames, left, right, gap⟩ :: rest

def admitBlocks (timeline : Timeline) (rawTotal : Nat) (totals : Totals) (reader : List Next) :
    List Block → Except (Fault String) (List Packet × Timeline × List Next)
  | [] => .ok ([], timeline, reader)
  | block :: blocks => do
    let (packets, rawFrames, totals, reader) ← blockPackets opus metadata limits block.frames 0 totals reader
    let rawTotal ← orError "WebM Opus raw duration overflows" (checkedAdd 64 rawTotal rawFrames)
    bound rawTotal metadata.channels limits
    let (window, timeline) ← timeline.block block metadata.scaleNs metadata.preSkip rawFrames
    let packets ← distribute window window.gap 0 packets
    bound timeline.presented metadata.channels limits
    let (rest, timeline, reader) ← admitBlocks timeline rawTotal totals reader blocks
    return (packets ++ rest, timeline, reader)

/-- The end of the demuxer's packets. -/
def finish : List Next → Except (Fault String) Unit
  | [] => .ok ()
  | .unexpectedEof :: _ =>
    failIf (metadata.unknownSegment = false ∧ metadata.unknownCluster = false)
      (.Returned "finish WebM Opus demux: unexpected end of file")
  | .packet _ :: _ => .error (.Returned "WebM Opus has unaccounted packets")
  | .failed error :: _ => .error (.Returned ("finish WebM Opus demux: " ++ error))

/-- `admit` -/
def admitPackets (reader : List Next) : Except (Fault String) Admitted := do
  let (packets, timeline, reader) ← admitBlocks opus metadata limits {} 0 ⟨0, 0⟩ reader metadata.blocks
  finish metadata reader
  failIf (timeline.presented = 0) (.Returned "WebM Opus has no presentation audio")
  return ⟨packets, timeline.presented⟩

end Admission

/-! ## Windows of packets -/

/-- The samples that are presented of a packet and before it. -/
def Packet.shown (packet : Packet) : Nat := packet.gap + (packet.right - packet.left)

def total (packets : List Packet) : Nat := (packets.map Packet.shown).sum

theorem total_append (first second : List Packet) : total (first ++ second) = total first + total second := by
  simp [total]

/-- The part of the window after the offset is that of the packets. -/
theorem distribute_runs {window : Window} {packets : List (List UInt8 × Nat)} (hleft : window.left ≤ window.right)
    (gap offset : Nat) (hright : window.right ≤ offset + (packets.map Prod.snd).sum)
    (hfits : offset + (packets.map Prod.snd).sum < 2 ^ 64) :
    Runs (distribute window gap offset packets) fun cut =>
      total cut = (if packets = [] then 0 else gap) + ((window.right - offset) - (window.left - offset)) ∧
        ∀ packet ∈ cut, packet.left ≤ packet.right ∧ packet.right ≤ packet.frames := by
  induction packets generalizing gap offset with
  | nil =>
    refine .pure ⟨?_, by simp⟩
    rw [List.map_nil, List.sum_nil] at hright
    show 0 = 0 + _
    omega
  | cons packet packets ih =>
    obtain ⟨data, frames⟩ := packet
    rw [List.map_cons, List.sum_cons] at hright hfits
    rw [distribute, unsignedWord_of_lt (by omega), orPanic_some, ok_bind]
    refine Runs.bind (ih 0 (offset + frames) (by omega) (by omega)) ?_
    rintro rest ⟨htotal, hrest⟩
    refine .pure ⟨?_, ?_⟩
    · rw [total, List.map_cons, List.sum_cons]
      rw [total] at htotal
      rw [htotal, Packet.shown, if_neg (List.cons_ne_nil _ _)]
      dsimp only
      have hnone : (if packets = [] then 0 else 0) = 0 := ite_self 0
      omega
    · intro packet hpacket
      rcases List.mem_cons.mp hpacket with rfl | hmem
      · dsimp only
        omega
      · exact hrest packet hmem

section Admission

variable (opus : OpusParser) (metadata : Metadata) (limits : Limits)

theorem nextPacket_runs (totals : Totals) (reader : List Next) :
    Runs (nextPacket opus metadata limits totals reader) fun _ => True := by
  rw [nextPacket]
  refine Runs.bind Runs.failIf fun _ _ => ?_
  refine Runs.bind (P := fun _ => True) ?_ ?_
  · match reader with
    | [] => exact .returned _
    | .unexpectedEof :: _ => exact .returned _
    | .failed error :: _ => exact .returned _
    | .packet packet :: rest => exact .pure trivial
  · rintro ⟨packet, reader⟩ -
    refine Runs.bind Runs.failIf fun _ _ => ?_
    refine Runs.bind (Runs.orError (P := fun _ => True) fun _ _ => trivial) fun encoded _ => ?_
    refine Runs.bind Runs.failIf fun _ _ => ?_
    refine Runs.bind Runs.mapError fun _ _ => ?_
    refine Runs.bind Runs.mapError fun frames _ => ?_
    exact Runs.bind Runs.failIf fun _ _ => .pure trivial

theorem blockPackets_runs (count rawFrames : Nat) (totals : Totals) (reader : List Next) (hfits : rawFrames < 2 ^ 64) :
    Runs (blockPackets opus metadata limits count rawFrames totals reader) fun result =>
      result.1.length = count ∧ result.2.1 = rawFrames + (result.1.map Prod.snd).sum ∧ result.2.1 < 2 ^ 64 := by
  induction count generalizing rawFrames totals reader with
  | zero => exact .pure ⟨rfl, by simp, hfits⟩
  | succ count ih =>
    rw [blockPackets]
    refine Runs.bind (nextPacket_runs opus metadata limits totals reader) ?_
    rintro ⟨packet, totals, reader⟩ -
    refine Runs.bind (Runs.orError fun sum hsum => checkedAdd_eq_some.mp hsum) ?_
    rintro sum ⟨rfl, hsum⟩
    refine Runs.bind (ih _ totals reader hsum) ?_
    rintro ⟨packets, total, totals, reader⟩ ⟨hlength, htotal, hless⟩
    refine .pure ⟨congrArg Nat.succ hlength, ?_, hless⟩
    rw [List.map_cons, List.sum_cons, ← Nat.add_assoc]
    exact htotal

/-- The windows of the packets are those of the blocks, and nothing overflows. -/
theorem admitBlocks_runs {timeline : Timeline} (h : timeline.Fits) (rawTotal : Nat) (totals : Totals)
    (reader : List Next) (blocks : List Block) :
    Runs (admitBlocks opus metadata limits timeline rawTotal totals reader blocks) fun result =>
      result.2.1.presented = timeline.presented + total result.1 ∧
        ∀ packet ∈ result.1, packet.left ≤ packet.right ∧ packet.right ≤ packet.frames := by
  induction blocks generalizing timeline rawTotal totals reader with
  | nil => exact .pure ⟨rfl, by simp⟩
  | cons block blocks ih =>
    rw [admitBlocks]
    refine Runs.bind (blockPackets_runs opus metadata limits block.frames 0 totals reader (by decide)) ?_
    rintro ⟨packets, rawFrames, totals, reader⟩ ⟨hlength, hsum, hfits⟩
    rw [Nat.zero_add] at hsum
    refine Runs.bind (Runs.orError (P := fun _ => True) fun _ _ => trivial) fun rawTotal _ => ?_
    refine Runs.bind Runs.failIf fun _ _ => ?_
    refine Runs.bind (block_runs h block metadata.scaleNs metadata.preSkip rawFrames) ?_
    rintro ⟨window, between⟩ ⟨hbetween, rawStart, hplaced⟩
    have hright : window.right ≤ 0 + (packets.map Prod.snd).sum := by
      rw [Nat.zero_add, ← hsum]
      exact hplaced.right_le
    refine Runs.bind (distribute_runs hplaced.left_le window.gap 0 hright (by rw [Nat.zero_add, ← hsum]; exact hfits)) ?_
    rintro cut ⟨hcut, hwindows⟩
    refine Runs.bind Runs.failIf fun _ _ => ?_
    refine Runs.bind (ih hbetween rawTotal totals reader) ?_
    rintro ⟨rest, last, reader⟩ ⟨hrest, hothers⟩
    refine .pure ⟨?_, ?_⟩
    · have hsome : packets ≠ [] := by
        intro hnone
        rw [hnone] at hlength
        exact absurd hlength (Nat.ne_of_lt block.frames_pos)
      rw [if_neg hsome, Nat.sub_zero, Nat.sub_zero] at hcut
      have hbefore : between.presented = timeline.presented + total cut :=
        hplaced.presented.trans (congrArg (timeline.presented + ·) hcut.symm)
      have hlast : last.presented = between.presented + total rest := hrest
      show last.presented = timeline.presented + total (cut ++ rest)
      rw [hlast, hbefore, total_append, Nat.add_assoc]
    · intro packet hpacket
      rcases List.mem_append.mp hpacket with hmem | hmem
      · exact hwindows packet hmem
      · exact hothers packet hmem

theorem admit_runs (reader : List Next) : Runs (admitPackets opus metadata limits reader) fun admitted =>
    admitted.frames = total admitted.packets ∧
      ∀ packet ∈ admitted.packets, packet.left ≤ packet.right ∧ packet.right ≤ packet.frames := by
  have hstart : ({} : Timeline).Fits := nofun
  refine Runs.bind (admitBlocks_runs opus metadata limits hstart 0 ⟨0, 0⟩ reader metadata.blocks) ?_
  rintro ⟨packets, timeline, reader⟩ ⟨hpresented, hwindows⟩
  refine Runs.bind (P := fun _ => True) ?_ fun _ _ => ?_
  · match reader with
    | [] => exact .pure trivial
    | .unexpectedEof :: _ => exact Runs.failIf.mono fun _ _ => trivial
    | .packet packet :: _ => exact .returned _
    | .failed error :: _ => exact .returned _
  · refine Runs.bind Runs.failIf fun _ _ => ?_
    have htotal : timeline.presented = total packets := hpresented.trans (Nat.zero_add _)
    exact .pure ⟨htotal, hwindows⟩

end Admission

end BetterWebBrowser.WebmOpus
