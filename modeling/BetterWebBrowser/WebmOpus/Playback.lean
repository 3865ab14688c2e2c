import BetterWebBrowser.WebmOpus.Mux

/-!
# Playing what was recorded

The timeline puts every recorded packet exactly after the last one, so that the player presents the
samples from the pre-skip to the final granule.
-/

namespace BetterWebBrowser.WebmOpus

open Framework

/-! ## One packet -/

/-- The timeline after whole packets. -/
def playedTo (preSkip : UInt16) (count : Nat) : Timeline :=
  { rawEnd := if count = 0 then none else some (960 * count - preSkip.toNat)
    presented := 960 * count - preSkip.toNat }

/-- The window of a packet by its number and its padding. -/
def windowAt (preSkip : UInt16) (index padding : Nat) : Window :=
  let left := min (preSkip.toNat - 960 * index) 960
  { left := left, right := max (960 - padding) left, gap := 0 }

theorem position_ticks (index : Nat) : position ((20 * index : Nat) * (1000000 : Nat)) = 960 * index := by
  refine roundedDiv_eq ?_
  omega

theorem position_padding {padding : Nat} : position (padding * 1000000000 / 48000 : Nat) = padding := by
  refine roundedDiv_eq ?_
  omega

theorem snap_played (preSkip : UInt16) (count : Nat) :
    snap (960 * count - preSkip.toNat) (tick writtenScale) (playedTo preSkip count).rawEnd =
      .ok (960 * count - preSkip.toNat) := by
  rw [playedTo]
  dsimp only
  split
  · rfl
  · rw [snap, if_pos (by omega)]

/-- What is presented of a packet that starts where it should. -/
theorem present_played {preSkip : UInt16} {count padding : Nat} (hcount : 960 * (count + 1) ≤ 48000 * 3600)
    (hpadding : padding ≤ 960) :
    (playedTo preSkip count).present (padding * 1000000000 / 48000 : Nat) (960 * count - preSkip.toNat) 960 =
      .ok (windowAt preSkip count padding,
        { rawEnd := some (960 * (count + 1) - preSkip.toNat)
          presented := (960 * count - preSkip.toNat) +
            ((windowAt preSkip count padding).right - (windowAt preSkip count padding).left) }) := by
  have hskip := preSkip.toNat_lt
  have hduration : IsI64 ((960 : Nat) : Int) := by
    rw [IsI64]
    omega
  have hend : IsI64 ((960 : Int) * count - preSkip.toNat + (960 : Nat)) := by
    rw [IsI64]
    omega
  have hscaled : -2 ^ 127 ≤ ((padding * 1000000000 / 48000 : Nat) : Int) * 48000 ∧
      ((padding * 1000000000 / 48000 : Nat) : Int) * 48000 < 2 ^ 127 := by
    omega
  have hvalue : IsI64 (position (padding * 1000000000 / 48000 : Nat)) := by
    rw [position_padding, IsI64]
    omega
  rw [Timeline.present, signedWord_of_i64 hduration, orError_some, ok_bind, signedWord_of_i64 hend, orError_some, ok_bind,
    samples_eq hscaled hvalue, ok_bind, position_padding]
  have htrimLeft : (if ((padding * 1000000000 / 48000 : Nat) : Int) < 0 then (padding : Int).natAbs else 0) = 0 :=
    if_neg (by omega)
  have htrimRight : (if 0 < ((padding * 1000000000 / 48000 : Nat) : Int) then (padding : Int).natAbs else 0) = padding := by
    split <;> omega
  have hearly : ((960 : Int) * count - preSkip.toNat).natAbs * (if (960 : Int) * count - preSkip.toNat < 0 then 1 else 0) =
      preSkip.toNat - 960 * count := by
    split <;> omega
  have hgap : (max ((960 : Int) * count - preSkip.toNat) 0).toNat - (max ((playedTo preSkip count).rawEnd.getD 0) 0).toNat =
      0 := by
    rw [playedTo]
    dsimp only
    split
    · simp
      omega
    · simp
  have hpresented : (playedTo preSkip count).presented = 960 * count - preSkip.toNat := rfl
  have hleft : min (max 0 (preSkip.toNat - 960 * count)) 960 = (windowAt preSkip count padding).left := by
    rw [windowAt, Nat.zero_max]
  have hright : max (960 - padding) (windowAt preSkip count padding).left = (windowAt preSkip count padding).right := rfl
  have hlength : (windowAt preSkip count padding).left ≤ (windowAt preSkip count padding).right := Nat.le_max_right _ _
  have hbounded : (windowAt preSkip count padding).right ≤ 960 :=
    Nat.max_le.mpr ⟨Nat.sub_le _ _, Nat.min_le_right _ _⟩
  dsimp only
  rw [failIf_passed (by omega), ok_bind, htrimLeft, htrimRight, hearly, unsignedWord_of_lt (by omega), orPanic_some, ok_bind, hleft,
    checkedSub_of_le hpadding, orPanic_some, ok_bind, hright, hgap, hpresented,
    checkedAdd_of_lt (by omega), orError_some, ok_bind, checkedSub_of_le hlength, orPanic_some, ok_bind, Nat.add_zero,
    checkedAdd_of_lt (by omega), orError_some, ok_bind]
  have hnext : (960 : Int) * count - preSkip.toNat + (960 : Nat) = 960 * (count + 1) - preSkip.toNat := by
    omega
  rw [hnext]
  rfl

/-- A recorded packet starts exactly where the last one ended. -/
theorem block_played {preSkip : UInt16} {count padding : Nat} (hcount : 960 * (count + 1) ≤ 48000 * 3600)
    (hpadding : padding ≤ 960) :
    (playedTo preSkip count).block (numbered count (padding * 1000000000 / 48000)) writtenScale preSkip 960 =
      .ok (windowAt preSkip count padding,
        { rawEnd := some (960 * (count + 1) - preSkip.toNat)
          presented := (960 * count - preSkip.toNat) +
            ((windowAt preSkip count padding).right - (windowAt preSkip count padding).left) }) := by
  have hskip := preSkip.toNat_lt
  have hscale : writtenScale.toNat = 1000000 := rfl
  have hticks : (numbered count (padding * 1000000000 / 48000)).timeTicks = (20 * count : Nat) := rfl
  have hns : -2 ^ (128 - 1) ≤ ((20 * count : Nat) : Int) * (1000000 : Nat) ∧
      ((20 * count : Nat) : Int) * (1000000 : Nat) < 2 ^ (128 - 1) := by
    omega
  have hscaled : -2 ^ 127 ≤ ((20 * count : Nat) : Int) * (1000000 : Nat) * 48000 ∧
      ((20 * count : Nat) : Int) * (1000000 : Nat) * 48000 < 2 ^ 127 := by
    omega
  have hvalue : IsI64 (position (((20 * count : Nat) : Int) * (1000000 : Nat))) := by
    rw [position_ticks, IsI64]
    omega
  have hwanted : IsI64 (960 * count - preSkip.toNat) := by
    rw [IsI64]
    omega
  rw [Timeline.block, hscale, hticks, signedWord_of_fits hns, orError_some, ok_bind, samples_eq hscaled hvalue, ok_bind,
    position_ticks, signedWord_of_i64 hwanted, orError_some, ok_bind, tolerance_eq, ok_bind, snap_played, ok_bind]
  exact present_played hcount hpadding

/-! ## A recording -/

theorem replay_played {preSkip : UInt16} {first more padding : Nat} (hcount : 960 * (first + more + 1) ≤ 48000 * 3600)
    (hpadding : padding ≤ 960) :
    (playedTo preSkip first).replay writtenScale preSkip
        (((List.range' first more).map fun index => (numbered index 0, 960)) ++
          [(numbered (first + more) (padding * 1000000000 / 48000), 960)]) =
      .ok (((List.range' first more).map fun index => windowAt preSkip index 0) ++ [windowAt preSkip (first + more) padding],
        { rawEnd := some (960 * ((first + more : Nat) + 1) - preSkip.toNat)
          presented := (960 * (first + more) - preSkip.toNat) +
            ((windowAt preSkip (first + more) padding).right - (windowAt preSkip (first + more) padding).left) }) := by
  induction more generalizing first with
  | zero =>
    rw [Nat.add_zero] at hcount
    rw [Nat.add_zero, List.range'_zero, List.map_nil, List.nil_append, Timeline.replay, block_played hcount hpadding, ok_bind]
    rfl
  | succ more ih =>
    have hblock : (playedTo preSkip first).block (numbered first 0) writtenScale preSkip 960 =
        .ok (windowAt preSkip first 0, playedTo preSkip (first + 1)) := by
      have hfirst : 960 * (first + 1) ≤ 48000 * 3600 := by omega
      have hwhole : (playedTo preSkip first).block (numbered first (0 * 1000000000 / 48000)) writtenScale preSkip 960 = _ :=
        block_played hfirst (Nat.zero_le 960)
      rw [Nat.zero_mul, Nat.zero_div] at hwhole
      have hend : (960 : Int) * (first + 1) - preSkip.toNat = 960 * (first + 1 : Nat) - preSkip.toNat := by omega
      have hpresented : 960 * first - preSkip.toNat + ((windowAt preSkip first 0).right - (windowAt preSkip first 0).left) =
          960 * (first + 1) - preSkip.toNat := by
        rw [windowAt]
        dsimp only
        omega
      rw [hwhole, playedTo, if_neg (Nat.succ_ne_zero first), hend, hpresented]
    rw [show first + (more + 1) = first + 1 + more by omega] at hcount ⊢
    rw [List.range'_succ, List.map_cons, List.map_cons, List.cons_append, Timeline.replay, hblock, ok_bind]
    dsimp only
    rw [ih hcount, ok_bind]
    rfl

/-- The raw samples that windows of packets show, from a position on. -/
def shown : Nat → List Window → List Nat
  | _, [] => []
  | start, window :: windows =>
    List.range' (start + window.left) (window.right - window.left) ++ shown (start + 960) windows

theorem range'_congr {a b length : Nat} (h : length = 0 ∨ a = b) : List.range' a length = List.range' b length := by
  rcases h with rfl | rfl
  · rfl
  · rfl

theorem range'_glue {a b c : Nat} (hab : a ≤ b) (hbc : b ≤ c) :
    List.range' a (b - a) ++ List.range' b (c - b) = List.range' a (c - a) := by
  have hglued : List.range' a (b - a) ++ List.range' (a + (b - a)) (c - b) = _ := List.range'_append_1
  rw [Nat.add_sub_cancel' hab] at hglued
  rw [hglued]
  congr 1
  omega

theorem shown_played {preSkip : UInt16} {first more padding : Nat} (hpadding : padding ≤ 960) :
    shown (960 * first)
        (((List.range' first more).map fun index => windowAt preSkip index 0) ++ [windowAt preSkip (first + more) padding]) =
      List.range' (max preSkip.toNat (960 * first)) (960 * (first + more + 1) - padding - max preSkip.toNat (960 * first)) := by
  induction more generalizing first with
  | zero =>
    rw [Nat.add_zero, List.range'_zero, List.map_nil, List.nil_append, shown, shown, List.append_nil, windowAt]
    dsimp only
    have hlength : max (960 - padding) (min (preSkip.toNat - 960 * first) 960) - min (preSkip.toNat - 960 * first) 960 =
        960 * (first + 1) - padding - max preSkip.toNat (960 * first) := by
      omega
    rw [hlength]
    exact range'_congr (by omega)
  | succ more ih =>
    have hrest : shown (960 * (first + 1)) _ = _ := ih
    rw [show first + (more + 1) = first + 1 + more by omega]
    rw [List.range'_succ, List.map_cons, List.cons_append, shown, show 960 * first + 960 = 960 * (first + 1) by omega, hrest,
      windowAt]
    dsimp only
    -- what the packet shows ends where the rest begins
    have hfirst : List.range' (960 * first + min (preSkip.toNat - 960 * first) 960)
        (max (960 - 0) (min (preSkip.toNat - 960 * first) 960) - min (preSkip.toNat - 960 * first) 960) =
        List.range' (max preSkip.toNat (960 * first))
          (max preSkip.toNat (960 * (first + 1)) - max preSkip.toNat (960 * first)) := by
      have hlength : max (960 - 0) (min (preSkip.toNat - 960 * first) 960) - min (preSkip.toNat - 960 * first) 960 =
          max preSkip.toNat (960 * (first + 1)) - max preSkip.toNat (960 * first) := by
        omega
      rw [hlength]
      exact range'_congr (by omega)
    rw [hfirst]
    by_cases hpast : max preSkip.toNat (960 * (first + 1)) ≤ 960 * (first + 1 + more + 1) - padding
    · exact range'_glue (by omega) hpast
    · -- the pre-skip is longer than the recording
      have hfirstNone : max preSkip.toNat (960 * (first + 1)) - max preSkip.toNat (960 * first) = 0 := by omega
      have hrestNone : 960 * (first + 1 + more + 1) - padding - max preSkip.toNat (960 * (first + 1)) = 0 := by omega
      have hallNone : 960 * (first + 1 + more + 1) - padding - max preSkip.toNat (960 * first) = 0 := by omega
      rw [hfirstNone, hrestNone, hallNone]
      rfl

theorem playedTo_zero (preSkip : UInt16) : playedTo preSkip 0 = {} := by
  simp [playedTo]

/-- The player presents exactly the recorded samples from the pre-skip to the final granule; every run of the
timeline places its blocks near their timestamps and apart, and cutting their windows keeps what is presented. -/
theorem recording_plays {opus : OpusParser} {preSkip : UInt16} {calls : List Call} {last : Call} {granule : Nat} {mux : Mux}
    (hlast : last.finalGranule = some granule) (hskip : preSkip.toNat < granule)
    (hrecord : (Mux.new preSkip).record opus (calls ++ [last]) = some mux) :
    (∃ windows timeline, ({} : Timeline).replay writtenScale preSkip (mux.written.map fun cluster => (cluster.block, 960)) =
          .ok (windows, timeline) ∧
        (∀ window ∈ windows, window.gap = 0) ∧ shown 0 windows = List.range' preSkip.toNat (granule - preSkip.toNat) ∧
        timeline.presented = granule - preSkip.toNat) ∧
      (∀ scaleNs skip blocks, ({} : Timeline).replay scaleNs skip blocks ≠ .error .Panicked ∧
        ∀ windows timeline, ({} : Timeline).replay scaleNs skip blocks = .ok (windows, timeline) →
          ∃ placements, Replayed scaleNs skip {} blocks windows timeline placements) ∧
      ∀ parser metadata limits reader, admitPackets parser metadata limits reader ≠ .error .Panicked ∧
        ∀ admitted, admitPackets parser metadata limits reader = .ok admitted →
          admitted.frames = total admitted.packets ∧
            ∀ packet ∈ admitted.packets, packet.left ≤ packet.right ∧ packet.right ≤ packet.frames := by
  refine ⟨?_, fun scaleNs skip blocks => ?_, fun parser metadata limits reader => ?_⟩
  · have hnew : Recording (Mux.new preSkip) 0 := ⟨rfl, rfl⟩
    obtain ⟨hbound, hlow, hhigh, -, hwritten⟩ := record_ok hnew hlast hrecord
    rw [Nat.zero_add] at hbound hlow hhigh hwritten
    have hpadding : 960 * (calls.length + 1) - granule ≤ 960 := by omega
    have hblocks : (mux.written.map fun cluster => (cluster.block, 960)) =
        ((List.range' 0 calls.length).map fun index => (numbered index 0, 960)) ++
          [(numbered (0 + calls.length) ((960 * (calls.length + 1) - granule) * 1000000000 / 48000), 960)] := by
      have hmap := congrArg (List.map fun block : Block => (block, 960)) hwritten
      rw [List.map_map, List.map_append, List.map_map, List.map_singleton] at hmap
      rw [Nat.zero_add, ← List.range_eq_range']
      exact hmap
    have hcount : 960 * (0 + calls.length + 1) ≤ 48000 * 3600 := by rwa [Nat.zero_add]
    have hplayed : (playedTo preSkip 0).replay writtenScale preSkip _ = _ := replay_played hcount hpadding
    rw [playedTo_zero, ← hblocks] at hplayed
    refine ⟨_, _, hplayed, ?_, ?_, ?_⟩
    · intro window hwindow
      rcases List.mem_append.mp hwindow with hmem | hmem
      · obtain ⟨index, -, rfl⟩ := List.mem_map.mp hmem
        rfl
      · rw [List.mem_singleton.mp hmem]
        rfl
    · rw [← Nat.mul_zero 960, shown_played hpadding, Nat.mul_zero, Nat.max_zero]
      congr 1
      omega
    · rw [windowAt]
      dsimp only
      omega
  · have hfits : ({} : Timeline).Fits := nofun
    have hruns := replay_runs hfits scaleNs skip blocks
    exact ⟨hruns.not_panicked, fun windows timeline hok => hruns.of_ok hok⟩
  · have hruns := admit_runs parser metadata limits reader
    exact ⟨hruns.not_panicked, fun admitted hok => hruns.of_ok hok⟩

/-- A parser for which every packet has 20 ms. -/
def wholePackets : OpusParser := ⟨fun _ => .ok (), fun _ => .ok 960⟩

/-- A packet that ends the recording after 900 of its frames. -/
def endingCall : Call := ⟨[1], some 900, true, true⟩

theorem recording_plays_one_packet : ∃ mux, (Mux.new 312).record wholePackets [endingCall] = some mux ∧
    ∃ windows timeline, ({} : Timeline).replay writtenScale 312 (mux.written.map fun cluster => (cluster.block, 960)) =
        .ok (windows, timeline) ∧ timeline.presented = 588 := by
  have hsome : ((Mux.new 312).record wholePackets ([] ++ [endingCall])).isSome = true := by decide
  obtain ⟨mux, hrecord⟩ := Option.isSome_iff_exists.mp hsome
  obtain ⟨windows, timeline, hplays, -, -, hpresented⟩ := (recording_plays rfl (by decide) hrecord).1
  exact ⟨mux, hrecord, windows, timeline, hplays, hpresented⟩

end BetterWebBrowser.WebmOpus
