import BetterWebBrowser.Framework.InputQueue
import BetterWebBrowser.Framework.Wire

/-!
# The FLAC encoder

Elementary FLAC frames of a fixed block size. Samples wait until a block is full; the inputs that
they came in give the frames their timestamps. The frame encoder is a parameter.
-/

namespace BetterWebBrowser.Media

open Framework

def MAX_INPUT_BYTES : Nat := 512 * 1024

structure FlacOptions where
  blockSize : Nat := 0
  compressLevel : Nat := 5
deriving DecidableEq, Repr

/-- What the FLAC encoder reads of a codec configuration; other options are only seen to be absent. -/
structure Config where
  sampleRate : Nat
  numberOfChannels : Nat
  variableBitrate : Bool
  otherOptions : Bool
  flac : Option FlacOptions
deriving DecidableEq, Repr

/-- The sizes of an encoder. -/
structure Format where
  rate : Nat
  channels : Nat
  blockSize : Nat
  rate_pos : 0 < rate
  channels_pos : 0 < channels
  blockSize_pos : 0 < blockSize

def Config.blockSize (config : Config) : Nat :=
  if (config.flac.getD {}).blockSize = 0 then 4096 else (config.flac.getD {}).blockSize

/-- `validate` -/
def Config.isValid (config : Config) : Bool :=
  decide (8000 ≤ config.sampleRate ∧ config.sampleRate ≤ 96000) &&
    decide (1 ≤ config.numberOfChannels ∧ config.numberOfChannels ≤ 2) && !config.otherOptions &&
    config.variableBitrate &&
    decide ((config.flac.getD {}).blockSize = 0 ∨
      32 ≤ (config.flac.getD {}).blockSize ∧ (config.flac.getD {}).blockSize ≤ 32767) &&
    decide ((config.flac.getD {}).compressLevel ≤ 8)

theorem Config.blockSize_pos (config : Config) : 0 < config.blockSize := by
  rw [blockSize]
  split <;> omega

def Config.format (config : Config) : Except String Format :=
  if h : config.isValid = true then
    .ok {
      rate := config.sampleRate
      channels := config.numberOfChannels
      blockSize := config.blockSize
      rate_pos := by
        simp only [isValid, Bool.and_eq_true, decide_eq_true_eq] at h
        omega
      channels_pos := by
        simp only [isValid, Bool.and_eq_true, decide_eq_true_eq] at h
        omega
      blockSize_pos := config.blockSize_pos }
  else .error "FLAC encoder requires 8–96 kHz mono/stereo, variable bitrate, blocks 32–32767 or auto, and compression 0–8"

structure Span where
  timestamp : Int
  frames : Nat
  consumed : Nat
deriving DecidableEq, Repr

structure Output where
  bytes : List UInt8
  format : String
  timestamp : Int
  duration : Nat
  frames : Nat
  sampleRate : Nat
  channels : Nat
  description : Option (List UInt8)
deriving DecidableEq, Repr

structure Encoder where
  format : Format
  description : Option (List UInt8)
  offset : Nat
  pending : List Int
  spans : List Span

/-- `header` are the stream metadata that flacenc writes. -/
def Encoder.new (header : Format → List UInt8) (config : Config) : Except String Encoder := do
  let format ← config.format
  return { format := format, description := some (header format), offset := 0, pending := [], spans := [] }

/-! ## Samples -/

/-- The bits of the little-endian 32-bit floats in complete chunks of four bytes. -/
def floats : List UInt8 → List Nat
  | a :: b :: c :: d :: bytes => fromLittleEndian [a, b, c, d] :: floats bytes
  | _ => []

def isFinite (bits : Nat) : Bool := decide (bits / 2 ^ 23 % 256 ≠ 255)

/-- The magnitude of a finite float times 2^23, rounded half away from zero. -/
def scaledMagnitude (bits : Nat) : Nat :=
  let exponent := bits / 2 ^ 23 % 256
  let mantissa := bits % 2 ^ 23
  if exponent = 0 then (2 * mantissa + 2 ^ 126) / 2 ^ 127
  else if 127 ≤ exponent then (mantissa + 2 ^ 23) * 2 ^ (exponent - 127)
  else (2 * (mantissa + 2 ^ 23) + 2 ^ (127 - exponent)) / 2 ^ (128 - exponent)

/-- The product is exact in 64-bit floats; it is rounded once and clamped to signed 24 bits. -/
def quantize (bits : Nat) : Int :=
  if bits / 2 ^ 31 % 2 = 1 then max (-8388608) (-(scaledMagnitude bits : Int))
  else min 8388607 (scaledMagnitude bits : Int)

/-! ## Packets -/

def checkedAddI64 (a b : Int) : Option Int := if -2 ^ 63 ≤ a + b ∧ a + b < 2 ^ 63 then some (a + b) else none

/-- A frame, with the samples and the number of the first of them that the frame encoder was given. -/
structure Packet where
  samples : List Int
  startSample : Nat
  output : Output

/-- Frames are taken from the spans in front, and used up spans removed. -/
def consumeSpans : List Span → Nat → Option (List Span)
  | spans, 0 => some spans
  | [], _ + 1 => none
  | span :: spans, remaining + 1 =>
    let take := min (remaining + 1) (span.frames - span.consumed)
    if span.consumed + take = span.frames then consumeSpans spans (remaining + 1 - take)
    else some ({ span with consumed := span.consumed + take } :: spans)

namespace Encoder

section Backend

-- `backend` is the frame encoder: the samples of a block and the number of its first sample.
variable (backend : Format → List Int → Nat → List UInt8)

def packet (encoder : Encoder) (frames : Nat) (cancelled : Bool) : Except String (Packet × Encoder) :=
  if cancelled then .error "FLAC encoding was cancelled"
  else if ¬ encoder.offset + frames < 2 ^ 36 then .error "FLAC sample number exceeds its 36-bit limit"
  else
    let samples := encoder.pending.take (frames * encoder.format.channels)
    match encoder.spans with
    | [] => .error "FLAC frame has no presentation timestamp"
    | span :: _ =>
      match checkedAddI64 span.timestamp (span.consumed * 1000000 / encoder.format.rate : Nat) with
      | none => .error "FLAC presentation timestamp overflows"
      | some timestamp =>
        match consumeSpans encoder.spans frames with
        | none => .error "FLAC frame exceeds retained PCM timing"
        | some spans =>
          .ok (
            { samples := samples
              startSample := encoder.offset
              output := {
                bytes := backend encoder.format samples encoder.offset
                format := "flac"
                timestamp := timestamp
                duration := frames * 1000000 / encoder.format.rate
                frames := 0
                sampleRate := encoder.format.rate
                channels := encoder.format.channels
                description := encoder.description } },
            { encoder with
              description := none
              offset := encoder.offset + frames
              pending := encoder.pending.drop (frames * encoder.format.channels)
              spans := spans })

/-- Full blocks are encoded while there are any; `cancelled` is what the flag reads each time. -/
def packets : Nat → Encoder → (Nat → Bool) → Except String (List Packet × Encoder)
  | 0, encoder, _ => .ok ([], encoder)
  | fuel + 1, encoder, cancelled =>
    if encoder.format.blockSize ≤ encoder.pending.length / encoder.format.channels then do
      let (first, encoder) ← packet backend encoder encoder.format.blockSize (cancelled 0)
      let (rest, encoder) ← packets fuel encoder fun load => cancelled (load + 1)
      return (first :: rest, encoder)
    else .ok ([], encoder)

/-- The samples of an input and its span are added. -/
def append (encoder : Encoder) (bytes : List UInt8) (timestamp : Int) : Encoder :=
  { encoder with
    pending := encoder.pending ++ (floats bytes).map quantize
    spans := encoder.spans ++ [⟨timestamp, bytes.length / (encoder.format.channels * 4), 0⟩] }

def encode (encoder : Encoder) (bytes : List UInt8) (timestamp : Int) (cancelled : Nat → Bool) :
    Except String (List Packet × Encoder) :=
  if cancelled 0 then .error "FLAC encoding was cancelled"
  else if bytes = [] ∨ MAX_INPUT_BYTES < bytes.length ∨ ¬ encoder.format.channels * 4 ∣ bytes.length then
    .error "FLAC input requires bounded complete float PCM frames"
  else if (floats bytes).any fun bits => !isFinite bits then .error "FLAC encoder input contains non-finite PCM"
  else
    let encoder := encoder.append bytes timestamp
    packets backend encoder.pending.length encoder fun load => cancelled (load + 1)

def flush (encoder : Encoder) (cancelled : Bool) : Except String (List Packet × Encoder) :=
  let frames := encoder.pending.length / encoder.format.channels
  if frames = 0 then .ok ([], encoder)
  else do
    let (last, encoder) ← packet backend encoder frames cancelled
    return ([last], encoder)

/-- An input of the encoder. -/
structure Input where
  bytes : List UInt8
  timestamp : Int
  cancelled : Nat → Bool

/-- The packets of one input after the other. -/
def encodeAll : Encoder → List Input → Except String (List Packet × Encoder)
  | encoder, [] => .ok ([], encoder)
  | encoder, input :: inputs => do
    let (first, encoder) ← encode backend encoder input.bytes input.timestamp input.cancelled
    let (rest, encoder) ← encodeAll encoder inputs
    return (first ++ rest, encoder)

end Backend

end Encoder

/-- Three samples of 1.0, -1.0 and 0.5. -/
example : [0x3f800000, 0xbf800000, 0x3f000000].map quantize = [8388607, -8388608, 4194304] := by decide

end BetterWebBrowser.Media
