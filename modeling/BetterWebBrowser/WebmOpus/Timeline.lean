import BetterWebBrowser.Framework.Faults
import BetterWebBrowser.Framework.Rounding

/-!
# The timeline of a WebM Opus track

Block timestamps become sample positions: a block starts where the last one ended if it is no more
than a tick away, and samples before zero or in the padding are not presented.
-/

namespace BetterWebBrowser.WebmOpus

open Framework

/-- A block of one packet or of several laced ones. -/
structure Block where
  timeTicks : Int
  frames : Nat
  paddingNs : Int
  frames_pos : 0 < frames

structure Window where
  left : Nat
  right : Nat
  gap : Nat
deriving DecidableEq, Repr

structure Timeline where
  rawEnd : Option Int := none
  presented : Nat := 0
deriving DecidableEq, Repr

def samples (ns : Int) : Except (Fault String) Int := do
  let scaled ← orError "WebM Opus nanosecond conversion overflows" (signedWord 128 (ns * 48000))
  let quotient := scaled.tdiv 1000000000
  let remainder := scaled.tmod 1000000000
  let value ← orPanic (signedWord 128 (quotient + (if 500000000 ≤ remainder.natAbs then 1 else 0) * scaled.sign))
  orError "WebM Opus sample timestamp exceeds bounds" (signedWord 64 value)

def tolerance (scaleNs : UInt64) : Except (Fault String) Nat := do
  let product ← orPanic (unsignedWord 128 (scaleNs.toNat * 48000))
  orPanic (unsignedWord 64 ((product + (1000000000 - 1)) / 1000000000 % 2 ^ 64 + 1))

/-- Where the samples of a block start: within a tick of the last end they start there. -/
def snap (wanted : Int) (tolerance : Nat) : Option Int → Except (Fault String) Int
  | some ending =>
    if (wanted - ending).natAbs ≤ tolerance then .ok ending
    else if wanted < ending then .error (.Returned "WebM Opus blocks overlap or run backwards")
    else .ok wanted
  | none => .ok wanted

/-- What is presented of a block from its raw start on. -/
def Timeline.present (timeline : Timeline) (paddingNs rawStart : Int) (frames : Nat) :
    Except (Fault String) (Window × Timeline) := do
  let duration ← orError "WebM Opus block duration overflows" (signedWord 64 frames)
  let rawEnd ← orError "WebM Opus block endpoint overflows" (signedWord 64 (rawStart + duration))
  let signed ← samples paddingNs
  let padding := signed.natAbs
  failIf (frames < padding) (.Returned "WebM Opus DiscardPadding exceeds its block")
  let trimLeft := if paddingNs < 0 then padding else 0
  let trimRight := if 0 < paddingNs then padding else 0
  let early ← orPanic (unsignedWord 64 (rawStart.natAbs * if rawStart < 0 then 1 else 0))
  let left := min (max trimLeft early) frames
  let untrimmed ← orPanic (checkedSub frames trimRight)
  let right := max untrimmed left
  let previousEnd := (max (timeline.rawEnd.getD 0) 0).toNat
  let gap := (max rawStart 0).toNat - previousEnd
  let delayed ← orError "WebM Opus presentation duration overflows" (checkedAdd 64 timeline.presented gap)
  let length ← orPanic (checkedSub right left)
  let presented ← orError "WebM Opus presentation duration overflows" (checkedAdd 64 delayed length)
  return (⟨left, right, gap⟩, ⟨some rawEnd, presented⟩)

def Timeline.block (timeline : Timeline) (block : Block) (scaleNs : UInt64) (preSkip : UInt16) (rawFrames : Nat) :
    Except (Fault String) (Window × Timeline) := do
  let ns ← orError "WebM Opus block timestamp overflows" (signedWord 128 (block.timeTicks * scaleNs.toNat))
  let position ← samples ns
  let wanted ← orError "WebM Opus pre-skip timestamp overflows" (signedWord 64 (position - preSkip.toNat))
  let tolerance ← tolerance scaleNs
  let rawStart ← snap wanted tolerance timeline.rawEnd
  timeline.present block.paddingNs rawStart rawFrames

/-- One block after the other, each with its raw duration. -/
def Timeline.replay (scaleNs : UInt64) (preSkip : UInt16) :
    Timeline → List (Block × Nat) → Except (Fault String) (List Window × Timeline)
  | timeline, [] => .ok ([], timeline)
  | timeline, (block, rawFrames) :: blocks => do
    let (window, timeline) ← timeline.block block scaleNs preSkip rawFrames
    let (windows, timeline) ← timeline.replay scaleNs preSkip blocks
    return (window :: windows, timeline)

/-! ## What a block is given -/

/-- The time in samples, rounded once. -/
def position (ns : Int) : Int := roundedDiv (ns * 48000) 1000000000

/-- The own timestamp of a block, without the pre-skip. -/
def Block.wanted (block : Block) (scaleNs : UInt64) (preSkip : UInt16) : Int :=
  position (block.timeTicks * scaleNs.toNat) - preSkip.toNat

/-- One tick in samples and one more. -/
def tick (scaleNs : UInt64) : Nat := (scaleNs.toNat * 48000 + (1000000000 - 1)) / 1000000000 + 1

theorem roundedValue_eq (scaled : Int) :
    scaled.tdiv 1000000000 + (if 500000000 ≤ (scaled.tmod 1000000000).natAbs then 1 else 0) * scaled.sign =
      roundedDiv scaled 1000000000 := by
  have hhalf : 500000000 ≤ (scaled.tmod 1000000000).natAbs ↔ 1000000000 ≤ 2 * (scaled.tmod 1000000000).natAbs := by
    omega
  rw [roundedDiv]
  simp only [hhalf]
  rfl

/-- The rounded value is in bounds when the scaled one is. -/
theorem roundedValue_fits {scaled : Int} (hlow : -2 ^ 127 ≤ scaled) (hhigh : scaled < 2 ^ 127) :
    signedWord 128 (scaled.tdiv 1000000000 + (if 500000000 ≤ (scaled.tmod 1000000000).natAbs then 1 else 0) * scaled.sign) =
      some (roundedDiv scaled 1000000000) := by
  have hnear : 2 * ((1000000000 : Nat) * roundedDiv scaled 1000000000 - scaled).natAbs ≤ 1000000000 :=
    roundedDiv_near (by decide)
  rw [roundedValue_eq, signedWord, if_pos]
  omega

theorem samples_runs (ns : Int) : Runs (samples ns) fun value => value = position ns ∧ IsI64 value := by
  refine Runs.bind (P := fun scaled : Int => scaled = ns * 48000 ∧ -2 ^ 127 ≤ scaled ∧ scaled < 2 ^ 127)
    (Runs.orError fun scaled hscaled => signedWord_some hscaled) ?_
  rintro scaled ⟨rfl, hlow, hhigh⟩
  refine Runs.bind (Runs.orPanic (roundedValue_fits hlow hhigh) rfl) ?_
  rintro value rfl
  exact Runs.orError fun word hword => signedWord_i64 hword

theorem samples_eq {ns : Int} (hscaled : -2 ^ 127 ≤ ns * 48000 ∧ ns * 48000 < 2 ^ 127)
    (hvalue : IsI64 (position ns)) : samples ns = .ok (position ns) := by
  rw [samples, signedWord_of_fits hscaled, orError_some, ok_bind]
  dsimp only
  rw [roundedValue_fits hscaled.1 hscaled.2, orPanic_some, ok_bind, ← position, signedWord_of_i64 hvalue, orError_some]

theorem tolerance_eq (scaleNs : UInt64) : tolerance scaleNs = .ok (tick scaleNs) := by
  have hscale := scaleNs.toNat_lt
  have hproduct : scaleNs.toNat * 48000 < 2 ^ 128 := by omega
  rw [tolerance, unsignedWord_of_lt hproduct, orPanic_some, ok_bind, Nat.mod_eq_of_lt (by omega),
    unsignedWord_of_lt (by omega), orPanic_some, tick]

theorem snap_runs (wanted : Int) (tolerance : Nat) (rawEnd : Option Int) :
    Runs (snap wanted tolerance rawEnd) fun start => (start - wanted).natAbs ≤ tolerance ∧
      (start = wanted ∨ some start = rawEnd) ∧ ∀ ending ∈ rawEnd, ending ≤ start := by
  cases rawEnd with
  | none => exact .pure ⟨by omega, .inl rfl, by simp⟩
  | some ending =>
    rw [snap]
    split
    · rename_i hnear
      exact .pure ⟨by omega, .inr rfl, by simp⟩
    · split
      · exact .returned _
      · rename_i hlate
        exact .pure ⟨by omega, .inl rfl, by simpa using hlate⟩

/-- What is kept of a block, and where its samples are. -/
structure Placed (timeline : Timeline) (wanted : Int) (tick frames : Nat) (rawStart : Int) (window : Window)
    (next : Timeline) : Prop where
  near : (rawStart - wanted).natAbs ≤ tick
  after : ∀ ending ∈ timeline.rawEnd, ending ≤ rawStart
  ending : next.rawEnd = some (rawStart + frames)
  left_le : window.left ≤ window.right
  right_le : window.right ≤ frames
  presented : next.presented = timeline.presented + (window.gap + (window.right - window.left))

/-- The last end is a signed 64-bit number. -/
def Timeline.Fits (timeline : Timeline) : Prop := ∀ ending ∈ timeline.rawEnd, IsI64 ending

theorem present_runs {timeline : Timeline} {rawStart : Int} (hstart : IsI64 rawStart) (paddingNs : Int) (frames : Nat) :
    Runs (timeline.present paddingNs rawStart frames) fun result =>
      IsI64 (rawStart + frames) ∧ result.2.rawEnd = some (rawStart + frames) ∧ result.1.left ≤ result.1.right ∧
        result.1.right ≤ frames ∧
        result.2.presented = timeline.presented + (result.1.gap + (result.1.right - result.1.left)) := by
  rw [Timeline.present]
  refine Runs.bind (P := fun duration : Int => duration = frames)
    (Runs.orError fun duration hduration => (signedWord_i64 hduration).1) ?_
  rintro duration rfl
  refine Runs.bind (P := fun rawEnd : Int => rawEnd = rawStart + frames ∧ IsI64 rawEnd)
    (Runs.orError fun rawEnd hrawEnd => signedWord_i64 hrawEnd) ?_
  rintro rawEnd ⟨rfl, hend⟩
  refine Runs.bind (samples_runs _) ?_
  rintro padding ⟨rfl, -⟩
  refine Runs.bind Runs.failIf ?_
  intro _ hpadding
  dsimp only
  have hearly : rawStart.natAbs * (if rawStart < 0 then 1 else 0) < 2 ^ 64 := by
    rw [IsI64] at hstart
    split <;> omega
  have htrim : (if 0 < paddingNs then (position paddingNs).natAbs else 0) ≤ frames := by
    split <;> omega
  rw [unsignedWord_of_lt hearly, orPanic_some, ok_bind, checkedSub_of_le htrim, orPanic_some, ok_bind]
  refine Runs.bind (Runs.orError fun delayed hdelayed => checkedAdd_eq_some.mp hdelayed) ?_
  rintro delayed ⟨rfl, -⟩
  rw [checkedSub_of_le (Nat.le_max_right _ _), orPanic_some, ok_bind]
  refine Runs.bind (Runs.orError fun presented hpresented => checkedAdd_eq_some.mp hpresented) ?_
  rintro presented ⟨rfl, -⟩
  refine .pure ⟨hend, rfl, Nat.le_max_right _ _, ?_, Nat.add_assoc _ _ _⟩
  exact Nat.max_le.mpr ⟨Nat.sub_le _ _, Nat.min_le_right _ _⟩

/-- No step overflows, and an accepted block is placed. -/
theorem block_runs {timeline : Timeline} (h : timeline.Fits) (block : Block) (scaleNs : UInt64) (preSkip : UInt16)
    (rawFrames : Nat) : Runs (timeline.block block scaleNs preSkip rawFrames) fun result =>
      result.2.Fits ∧ ∃ rawStart, Placed timeline (block.wanted scaleNs preSkip) (tick scaleNs) rawFrames rawStart
        result.1 result.2 := by
  rw [Timeline.block]
  refine Runs.bind (P := fun ns : Int => ns = block.timeTicks * scaleNs.toNat)
    (Runs.orError fun ns hns => (signedWord_some hns).1) ?_
  rintro ns rfl
  refine Runs.bind (samples_runs _) ?_
  rintro found ⟨rfl, -⟩
  refine Runs.bind (P := fun wanted : Int => wanted = block.wanted scaleNs preSkip ∧ IsI64 wanted)
    (Runs.orError fun wanted hwanted => signedWord_i64 hwanted) ?_
  rintro wanted ⟨rfl, hwanted⟩
  rw [tolerance_eq, ok_bind]
  refine Runs.bind (snap_runs _ _ _) ?_
  rintro rawStart ⟨hnear, hwhere, hafter⟩
  have hstart : IsI64 rawStart := by
    rcases hwhere with rfl | hsome
    · exact hwanted
    · exact h rawStart hsome.symm
  refine (present_runs hstart _ _).mono ?_
  rintro ⟨window, next⟩ ⟨hend, hrawEnd, hleft, hright, hpresented⟩
  refine ⟨fun ending hending => ?_, rawStart, hnear, hafter, hrawEnd, hleft, hright, hpresented⟩
  rw [hrawEnd] at hending
  cases hending
  exact hend

/-- The samples that a window presents, with the gap before them. -/
def Window.length (window : Window) : Nat := window.gap + (window.right - window.left)

/-- A block of a run, its raw duration and where it was put. -/
structure Placement where
  block : Block
  frames : Nat
  start : Int
  window : Window

/-- The blocks of a run start near their timestamps and after one another, and what is presented are
the gaps and windows. -/
structure Replayed (scaleNs : UInt64) (preSkip : UInt16) (timeline : Timeline) (blocks : List (Block × Nat))
    (windows : List Window) (last : Timeline) (placements : List Placement) : Prop where
  blockOf : placements.map (fun placement => (placement.block, placement.frames)) = blocks
  windowOf : placements.map Placement.window = windows
  near : ∀ placement ∈ placements, (placement.start - placement.block.wanted scaleNs preSkip).natAbs ≤ tick scaleNs
  inside : ∀ placement ∈ placements,
    placement.window.left ≤ placement.window.right ∧ placement.window.right ≤ placement.frames
  after : ∀ placement ∈ placements, ∀ ending ∈ timeline.rawEnd, ending ≤ placement.start
  apart : placements.Pairwise fun first second => first.start + (first.frames : Int) ≤ second.start
  presented : last.presented = timeline.presented + (windows.map Window.length).sum

theorem Placed.replayed {scaleNs : UInt64} {preSkip : UInt16} {timeline between last : Timeline} {block : Block}
    {frames : Nat} {rawStart : Int} {window : Window} {blocks : List (Block × Nat)} {windows : List Window}
    {placements : List Placement} (h : Placed timeline (block.wanted scaleNs preSkip) (tick scaleNs) frames rawStart window between)
    (hrest : Replayed scaleNs preSkip between blocks windows last placements) :
    Replayed scaleNs preSkip timeline ((block, frames) :: blocks) (window :: windows) last
      (⟨block, frames, rawStart, window⟩ :: placements) := by
  have hlater : ∀ placement ∈ placements, rawStart + frames ≤ placement.start :=
    fun placement hmem => hrest.after placement hmem _ h.ending
  constructor
  · rw [List.map_cons, hrest.blockOf]
  · rw [List.map_cons, hrest.windowOf]
  · exact List.forall_mem_cons.mpr ⟨h.near, hrest.near⟩
  · exact List.forall_mem_cons.mpr ⟨⟨h.left_le, h.right_le⟩, hrest.inside⟩
  · refine List.forall_mem_cons.mpr ⟨h.after, fun placement hmem ending hending => ?_⟩
    have hstart := h.after ending hending
    have hnext := hlater placement hmem
    omega
  · exact List.pairwise_cons.mpr ⟨hlater, hrest.apart⟩
  · rw [hrest.presented, h.presented, List.map_cons, List.sum_cons, Window.length, Nat.add_assoc]

theorem replay_runs {timeline : Timeline} (h : timeline.Fits) (scaleNs : UInt64) (preSkip : UInt16)
    (blocks : List (Block × Nat)) : Runs (timeline.replay scaleNs preSkip blocks) fun result =>
      ∃ placements, Replayed scaleNs preSkip timeline blocks result.1 result.2 placements := by
  induction blocks generalizing timeline with
  | nil => exact .pure ⟨[], rfl, rfl, by simp, by simp, by simp, .nil, rfl⟩
  | cons entry blocks ih =>
    obtain ⟨block, rawFrames⟩ := entry
    rw [Timeline.replay]
    refine Runs.bind (block_runs h block scaleNs preSkip rawFrames) ?_
    rintro ⟨window, between⟩ ⟨hfits, rawStart, hplaced⟩
    refine Runs.bind (ih hfits) ?_
    rintro ⟨windows, last⟩ ⟨placements, hall⟩
    exact .pure ⟨_, hplaced.replayed hall⟩

end BetterWebBrowser.WebmOpus
