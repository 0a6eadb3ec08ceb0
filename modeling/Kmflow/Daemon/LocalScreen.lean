import Kmflow.Daemon.Outcome
import Kmflow.Daemon.Screen
import Kmflow.Foundation.Utf8

/-!
# The local screen, from its detection to the end of a session

`query_screen_info` asks one source after the other: the display tools of Wayland, the X server, the
connectors in `/sys/class/drm`, and at last a resolution that it assumes. A display tool that ran
decides, even if nothing can be read of what it printed, though then the next kind of source is
asked. The tools' resolutions are divided by the scale that goes with them; those of the other
sources are not, and `Daemon::new` divides by the `--scale` of the command line only when the scale
that was found is `1.0`.

All that a session asks of the screen is that the cursor can be clamped to it. `safe_iff` says when
that is so over whole sessions, for every source: the cursor is on the screen all the time, and no
clamp panics, exactly when the one divisor that is in effect fits both sides of the resolution. The
numbers that are read and divided are exact rationals here, as for the display tools alone.
-/

namespace Kmflow

open Transition

/-! ### The cursor over a session -/

/-- A side that the clamp takes: not empty and, as an `i32`, not negative. At `2 ^ 31` the upper
bound has wrapped to `i32::MAX`. -/
def ClampsSide (size : UInt32) : Prop := 1 ≤ size.toNat ∧ size.toNat ≤ 2147483648

/-- A screen on which no clamp panics. -/
structure ScreenInfo.Clamps (screen : ScreenInfo) : Prop where
  width : ClampsSide screen.width
  height : ClampsSide screen.height

/-- A usable screen can be clamped to. -/
theorem ScreenInfo.Usable.clamps {screen : ScreenInfo} (h : screen.Usable) : screen.Clamps := by
  have hwidth := h.width_le
  have hheight := h.height_le
  simp only [i32Max] at hwidth hheight
  exact ⟨⟨h.width_pos, by omega⟩, h.height_pos, by omega⟩

/-- A side clamps whatever the position and the delta. -/
theorem clampsSide_iff {size : UInt32} {pos : ℤ} {d : F64} :
    ClampsSide size ↔ ∃ x, trackAxis size pos d = some x := by
  rw [← Option.isSome_iff_exists, ← not_iff_not, Option.not_isSome_iff_eq_none,
    trackAxis_eq_none_iff, ClampsSide]
  omega

section Arms

variable {screen : ScreenInfo} {cfg : SessionConfig} {s t : DaemonState} {env : Env}

/-- On a screen that clamps every move can be tracked. -/
theorem exists_trackMove (h : screen.Clamps) (dx dy : F64) (s : DaemonState) :
    ∃ t, trackMove screen dx dy s = .ok t := by
  obtain ⟨x, hx⟩ := clampsSide_iff.1 h.width
  obtain ⟨y, hy⟩ := clampsSide_iff.1 h.height
  exact ⟨_, by rw [trackMove, hx, hy]⟩

/-- On one that does not, none can. -/
theorem exists_trackMove_error (h : ¬ screen.Clamps) (dx dy : F64) (s : DaemonState) :
    ∃ t, trackMove screen dx dy s = .error t := by
  rcases hmove : trackMove screen dx dy s with t | t
  · exact ⟨t, rfl⟩
  · refine absurd ?_ h
    rw [trackMove] at hmove
    rcases hx : trackAxis screen.width s.cursorX dx with _ | x
    · rw [hx] at hmove
      cases hmove
    · rcases hy : trackAxis screen.height s.cursorY dy with _ | y
      · rw [hx, hy] at hmove
        cases hmove
      · exact ⟨clampsSide_iff.2 ⟨x, hx⟩, clampsSide_iff.2 ⟨y, hy⟩⟩

/-- The walk over a frame comes to an end, and ends on the screen if it began there. -/
theorem exists_scanMoves (h : cfg.localScreen.Clamps) (cooldown : Bool) (es : List InputEvent)
    (s : DaemonState) : ∃ t hit, scanMoves cfg cooldown s es = .ok (t, hit) := by
  induction es generalizing s with
  | nil => exact ⟨s, false, rfl⟩
  | cons e es ih =>
    rcases e with ⟨dx, dy⟩ | _ | _ | _
    · obtain ⟨t, ht⟩ := exists_trackMove h dx dy s
      rw [scanMoves, ht]
      dsimp only
      split_ifs
      · exact ⟨t, true, rfl⟩
      · exact ih t
    all_goals exact ih s

/-- Going over the moves of a frame keeps the cursor on the screen. -/
theorem onScreen_scanMoves (h : cfg.localScreen.Usable) {cooldown hit : Bool}
    {es : List InputEvent} (hs : OnScreen cfg.localScreen s)
    (ht : scanMoves cfg cooldown s es = .ok (t, hit)) : OnScreen cfg.localScreen t := by
  induction es generalizing s with
  | nil =>
    obtain rfl : s = t := congrArg Prod.fst (Except.ok.inj ht)
    exact hs
  | cons e es ih =>
    rcases e with ⟨dx, dy⟩ | _ | _ | _
    · obtain ⟨u, hu⟩ := exists_trackMove h.clamps dx dy s
      have honScreen := onScreen_of_trackMove h hu
      rw [scanMoves, hu] at ht
      dsimp only at ht
      split_ifs at ht
      · obtain rfl : u = t := congrArg Prod.fst (Except.ok.inj ht)
        exact honScreen
      · exact ih honScreen ht
    all_goals exact ih hs ht

/-- The centre of a usable screen. -/
theorem onScreen_centerCursor (h : cfg.localScreen.Usable) (s : DaemonState) :
    OnScreen cfg.localScreen (centerCursor cfg s) := by
  have haxis {size : UInt32} (hpos : 1 ≤ size.toNat) (hle : (size.toNat : ℤ) ≤ i32Max) :
      OnAxis size ((u32AsI32 size).tdiv 2) := by
    rw [u32AsI32_of_le hle, OnAxis, Int.tdiv_eq_ediv_of_nonneg (Int.natCast_nonneg _)]
    omega
  exact ⟨haxis h.width_pos h.width_le, haxis h.height_pos h.height_le⟩

/-! ### What the arms leave -/

theorem Flow.again_ne_panic : Flow.again ≠ .panic := by decide

theorem Flow.leave_ne_panic : Flow.leave ≠ .panic := by decide

/-- With focus local, a captured event does not panic on a screen that clamps. -/
theorem flow_keepLocal (h : cfg.localScreen.Clamps) (e : InputEvent) :
    (keepLocal cfg s e).flow ≠ .panic := by
  rcases e with ⟨dx, dy⟩ | _ | _ | _
  · obtain ⟨t, ht⟩ := exists_trackMove h dx dy s
    rw [keepLocal, ht]
    dsimp only
    split_ifs <;> exact Flow.again_ne_panic
  all_goals exact Flow.again_ne_panic

/-- It leaves the cursor on the screen. -/
theorem onScreen_keepLocal (h : cfg.localScreen.Usable) (hs : OnScreen cfg.localScreen s)
    (e : InputEvent) : OnScreen cfg.localScreen (keepLocal cfg s e).state := by
  rcases e with ⟨dx, dy⟩ | _ | _ | _
  · obtain ⟨t, ht⟩ := exists_trackMove h.clamps dx dy s
    rw [keepLocal, ht]
    dsimp only
    split_ifs
    · exact onScreen_centerCursor h _
    · exact onScreen_of_trackMove h ht
  all_goals exact hs

/-- Tracking keys leaves the cursor where it is. -/
theorem onScreen_trackKeyState (hs : OnScreen screen s) (e : InputEvent) :
    OnScreen screen (trackKeyState s e) := by
  rw [trackKeyState_eq]
  exact hs

/-- So does tracking any number of them. -/
theorem onScreen_foldl_trackKeyState (hs : OnScreen screen s) (es : List InputEvent) :
    OnScreen screen (es.foldl trackKeyState s) := by
  induction es generalizing s with
  | nil => exact hs
  | cons e es ih => exact ih (onScreen_trackKeyState hs e)

/-- The captured-event arm does not panic on a screen that clamps. -/
theorem flow_capturedArm (h : cfg.localScreen.Clamps) (e : InputEvent)
    (waiting : List InputEvent) : (capturedArm cfg env s e waiting).1.flow ≠ .panic := by
  rw [capturedArm]
  split_ifs
  · exact Flow.again_ne_panic
  · show (if env.datagramOk then Flow.again else .leave) ≠ .panic
    split_ifs
    · exact Flow.again_ne_panic
    · exact Flow.leave_ne_panic
  · exact flow_keepLocal h e

/-- It leaves the cursor on the screen. -/
theorem onScreen_capturedArm (h : cfg.localScreen.Usable) (hs : OnScreen cfg.localScreen s)
    (e : InputEvent) (waiting : List InputEvent) :
    OnScreen cfg.localScreen (capturedArm cfg env s e waiting).1.state := by
  have htracked := onScreen_trackKeyState hs e
  rw [capturedArm]
  split_ifs
  · exact htracked
  · rw [forwardBatch, drain_eq]
    exact onScreen_foldl_trackKeyState htracked _
  · exact onScreen_keepLocal h htracked e

/-- Nor do the two frame arms. -/
theorem flow_frameArm (h : cfg.localScreen.Clamps) (env : Env) (result : Option EventFrame) :
    (frameArm cfg env s result).flow ≠ .panic ∧
      (receiveOnlyFrameArm cfg env s result).flow ≠ .panic := by
  rcases result with _ | frame
  · exact ⟨Flow.leave_ne_panic, Flow.leave_ne_panic⟩
  · obtain ⟨t, hit, ht⟩ := exists_scanMoves h (inCooldown env s) frame.events s
    rw [frameArm, receiveOnlyFrameArm, ht]
    by_cases hlocal : (!s.focusIsRemote) = true
    · rw [if_pos hlocal, if_pos hlocal]
      rcases hit <;> exact ⟨Flow.again_ne_panic, Flow.again_ne_panic⟩
    · rw [if_neg hlocal, if_neg hlocal]
      exact ⟨Flow.again_ne_panic, Flow.again_ne_panic⟩

/-- They leave the cursor on the screen. -/
theorem onScreen_frameArm (h : cfg.localScreen.Usable) (hs : OnScreen cfg.localScreen s)
    (result : Option EventFrame) :
    OnScreen cfg.localScreen (frameArm cfg env s result).state ∧
      OnScreen cfg.localScreen (receiveOnlyFrameArm cfg env s result).state := by
  rcases result with _ | frame
  · exact ⟨hs, hs⟩
  · obtain ⟨t, hit, ht⟩ := exists_scanMoves h.clamps (inCooldown env s) frame.events s
    have htracked := onScreen_scanMoves h hs ht
    rw [frameArm, receiveOnlyFrameArm, ht]
    by_cases hlocal : (!s.focusIsRemote) = true
    · rw [if_pos hlocal, if_pos hlocal]
      rcases hit
      · exact ⟨htracked, htracked⟩
      · exact ⟨onScreen_centerCursor h _, onScreen_centerCursor h _⟩
    · rw [if_neg hlocal, if_neg hlocal]
      exact ⟨hs, hs⟩

/-- The control arms do not panic on any screen. -/
theorem flow_controlArm (env : Env) (result : Option ControlCommand) :
    (controlArm cfg env s result).flow ≠ .panic ∧
      (receiveOnlyControlArm cfg s result).flow ≠ .panic := by
  rcases result with _ | cmd
  · exact ⟨Flow.leave_ne_panic, Flow.leave_ne_panic⟩
  · rcases cmd
    case peerDisconnecting => exact ⟨Flow.leave_ne_panic, Flow.leave_ne_panic⟩
    all_goals exact ⟨Flow.again_ne_panic, Flow.again_ne_panic⟩

/-- They leave the cursor on the screen, as they move it to the centre. -/
theorem onScreen_controlArm (h : cfg.localScreen.Usable) (hs : OnScreen cfg.localScreen s)
    (env : Env) (result : Option ControlCommand) :
    OnScreen cfg.localScreen (controlArm cfg env s result).state ∧
      OnScreen cfg.localScreen (receiveOnlyControlArm cfg s result).state := by
  rcases result with _ | cmd
  · exact ⟨hs, hs⟩
  · have hcentre := onScreen_centerCursor h { s with focusIsRemote := false }
    rcases cmd
    case switchFocus | releaseFocus => exact ⟨hcentre, hcentre⟩
    all_goals exact ⟨hs, hs⟩

/-- The cleanup leaves the cursor where it is. -/
theorem onScreen_cleanup (hs : OnScreen screen s) : OnScreen screen (Kmflow.cleanup env s).1 := by
  rw [Kmflow.cleanup, cleanupFlush]
  by_cases hremote : s.focusIsRemote = true
  · rw [if_pos hremote]
    dsimp only
    split_ifs <;> exact hs
  · rw [if_neg hremote]
    exact hs

end Arms

/-! ### Runs -/

namespace Session

variable {cfg : SessionConfig} {s s' : Session} {i : Input}

/-- What does not panic does not make the session panic. -/
theorem phase_absorb_ne {r : Reaction} {channel : List InputEvent} (hflow : r.flow ≠ .panic)
    (hs : s.phase ≠ .panicked) : (s.absorb r channel).phase ≠ .panicked := by
  obtain ⟨d, outs, flow⟩ := r
  rcases flow
  · exact hs
  · exact nofun
  · exact nofun
  · exact absurd rfl hflow

/-- No step panics. -/
theorem phase_ne_of_step (h : cfg.localScreen.Clamps) (hs : s.phase ≠ .panicked)
    (hs' : s' ∈ step cfg s i) : s'.phase ≠ .panicked := by
  rcases armStep_of_step hs' with event | ⟨env, ready, event, rest, -, -⟩ | - | ⟨env, result, -⟩ |
    ⟨env, result, -⟩ | ⟨env, result, -⟩ | ⟨env, result, -⟩ | - | - | - | ⟨env, -⟩
  · exact hs
  · exact phase_absorb_ne (flow_capturedArm h event _) hs
  · exact nofun
  · exact phase_absorb_ne (flow_frameArm h env result).1 hs
  · exact phase_absorb_ne (flow_controlArm env result).1 hs
  · exact phase_absorb_ne (flow_frameArm h env result).2 hs
  · exact phase_absorb_ne (flow_controlArm env result).2 hs
  · exact nofun
  · exact hs
  · exact hs
  · exact nofun

/-- **Every step leaves the cursor on the screen.** -/
theorem onScreen_of_step (h : cfg.localScreen.Usable) (hs : OnScreen cfg.localScreen s.daemon)
    (hs' : s' ∈ step cfg s i) : OnScreen cfg.localScreen s'.daemon := by
  rcases armStep_of_step hs' with event | ⟨env, ready, event, rest, -, -⟩ | - | ⟨env, result, -⟩ |
    ⟨env, result, -⟩ | ⟨env, result, -⟩ | ⟨env, result, -⟩ | - | - | - | ⟨env, -⟩
  · exact hs
  · exact onScreen_capturedArm h hs event _
  · exact hs
  · exact (onScreen_frameArm h hs result).1
  · exact (onScreen_controlArm h hs env result).1
  · exact (onScreen_frameArm h hs result).2
  · exact (onScreen_controlArm h hs env result).2
  · exact hs
  · exact hs
  · exact hs
  · exact onScreen_cleanup hs

/-- A move is what it takes for a panic, once focus is local. -/
theorem exists_panic (h : ¬ cfg.localScreen.Clamps) (daemon : DaemonState) :
    ∃ labels, ∃ t ∈ run (step cfg) (start daemon) labels, t.phase = .panicked := by
  let released : DaemonState := (controlArm cfg (.at 0) daemon (some .releaseFocus)).state
  obtain ⟨t, ht⟩ := exists_trackMove_error h (.finite 0) (.finite 0) released
  let e : InputEvent := .mouseMove (.finite 0) (.finite 0)
  have hkeep : keepLocal cfg released e = ⟨t, [], .panic⟩ := by
    rw [keepLocal, ht]
  have harm : capturedArm cfg (.at 0) released e [] = (⟨t, [], .panic⟩, []) := by
    have hlocal : released.focusIsRemote = false := rfl
    show (if checkEmergencyHotkey released && released.focusIsRemote then _
      else if released.focusIsRemote then _ else (keepLocal cfg released e, [])) = _
    rw [hlocal, Bool.and_false, if_neg Bool.false_ne_true, if_neg Bool.false_ne_true, hkeep]
  have hcaptured : step cfg ⟨released, [e], .mainLoop, [.grab false]⟩ (.captured (.at 0) 0) =
      some ⟨t, [], .panicked, [.grab false]⟩ := by
    show some ((⟨released, [e], .mainLoop, [.grab false]⟩ : Session).absorb
      (capturedArm cfg (.at 0) released e []).1
      ((capturedArm cfg (.at 0) released e []).2 ++ [])) = _
    rw [harm]
    rfl
  exact ⟨[.control (.at 0) (some .releaseFocus), .push e, .captured (.at 0) 0], _,
    (congrArg (Option.bind · some) hcaptured), rfl⟩

/-- A session that a new daemon starts: nothing panics, and the cursor is on the screen. -/
def Safe (screen : ScreenInfo) : Prop :=
  ∀ cfg : SessionConfig, cfg.localScreen = screen → ∀ now labels,
    Throughout (step cfg) (fun s ↦ s.phase ≠ .panicked ∧ OnScreen screen s.daemon)
      (start (.new screen now)) labels

/-- The centre is on an axis that the clamp takes only if an `i32` can hold its size. -/
theorem le_of_onAxis_centre {size : UInt32} (h : ClampsSide size)
    (hcentre : OnAxis size ((u32AsI32 size).tdiv 2)) : (size.toNat : ℤ) ≤ i32Max := by
  by_contra hlarge
  have hsize : size = 2147483648 := by
    refine UInt32.toNat_inj.1 (le_antisymm h.2 ?_)
    show 2147483648 ≤ size.toNat
    simp only [i32Max] at hlarge
    omega
  rw [hsize] at hcentre
  exact absurd hcentre.1 (by decide)

/-- **A session is safe on the usable screens.** -/
theorem safe_iff_usable (screen : ScreenInfo) : Safe screen ↔ screen.Usable := by
  constructor
  · intro h
    let cfg : SessionConfig := ⟨screen, .right, true⟩
    have hclamps : cfg.localScreen.Clamps := by
      by_contra hnot
      obtain ⟨labels, t, ht, hpanicked⟩ := exists_panic hnot (.new screen 0)
      exact ((h cfg rfl 0 labels).last ht).1 hpanicked
    have hcentre : OnScreen screen (.new screen 0) := (h cfg rfl 0 []).2
    exact ⟨hclamps.width.1, le_of_onAxis_centre hclamps.width hcentre.1, hclamps.height.1,
      le_of_onAxis_centre hclamps.height hcentre.2⟩
  · rintro h cfg rfl now labels
    have hcentre : OnScreen cfg.localScreen (.new cfg.localScreen now) :=
      onScreen_centerCursor h (.new cfg.localScreen now)
    exact throughout_of_invariant (fun s i hs s' hs' ↦
      ⟨phase_ne_of_step h.clamps hs.1 hs', onScreen_of_step h hs.2 hs'⟩) ⟨nofun, hcentre⟩ labels

end Session

/-! ### Where the screen comes from -/

/-- A connector in `/sys/class/drm`; a file that cannot be read counts as empty. -/
structure DrmConnector where
  name : List Char
  status : List Char
  modes : List Char

/-- What the daemon finds when it starts. -/
structure ScreenEnv where
  /-- The standard output of `cosmic-randr list`, if it ran and succeeded. -/
  cosmicRandr : Option (List UInt8)
  /-- That of `wlr-randr`. -/
  wlrRandr : Option (List UInt8)
  /-- The size in pixels that the X server gives, if the backend is X11 and it can be reached. -/
  x11 : Option (UInt16 × UInt16)
  gdkScale : Option (List Char)
  qtScaleFactor : Option (List Char)
  /-- The standard output of `xrdb -query`, if it ran. -/
  xrdb : Option (List UInt8)
  /-- The entries of `/sys/class/drm`, if it can be read. -/
  drm : Option (List DrmConnector)

/-- The text a tool has printed. -/
def toolText (stdout : List UInt8) : List Char := (Utf8.decodeLossy stdout).toList

namespace ScreenEnv

variable (env : ScreenEnv)

/-- `detect_screen_from_randr`: the first display tool that runs decides. -/
def detectScreenFromRandr : Option ScreenInfo :=
  match env.cosmicRandr with
  | some stdout => parseCosmicRandr (toolText stdout)
  | none =>
    match env.wlrRandr with
    | some stdout => parseWlrRandr (toolText stdout)
    | none => none

/-- The scale of the first `Xft.dpi` that can be read. -/
def xftScale (line : List Char) : Option F64 := do
  let dpi ← Text.stripStart "Xft.dpi:".toList line
  let dpi ← F64.parse (Text.trim dpi)
  return dpi.div (.finite 96)

/-- `detect_x11_scale`: the variables of the toolkits, then the resources of the X server. -/
def detectX11Scale : F64 :=
  let xft := env.xrdb.bind fun stdout ↦ (Text.lines (toolText stdout)).findSome? xftScale
  ((env.gdkScale.bind F64.parse).or ((env.qtScaleFactor.bind F64.parse).or xft)).getD (.finite 1)

/-- A size that was not divided by anything. -/
def plainScreen (width height : UInt32) (scaleFactor : F64) : ScreenInfo :=
  ⟨width, height, scaleFactor, ⟨.right, 0⟩⟩

/-- The first mode of a connector that is connected, unless a side of it is `0`. -/
def drmMode (connector : DrmConnector) : Option (UInt32 × UInt32) :=
  if !Text.contains "HDMI".toList connector.name && !Text.contains "DP".toList connector.name &&
      !Text.contains "eDP".toList connector.name then none
  else if (Text.trim connector.status).map Char.toLower ≠ "connected".toList then none
  else do
    let firstMode ← (Text.lines connector.modes).head?
    let (w, h) ← Text.splitOnce 'x' firstMode
    if 0 < parseU32 w ∧ 0 < parseU32 h then some (parseU32 w, parseU32 h) else none

/-- `detect_screen_from_drm`: the first mode of the first connector that is connected and has one.
-/
def detectScreenFromDrm : Option ScreenInfo :=
  env.drm.bind fun connectors ↦
    (connectors.findSome? drmMode).map fun mode ↦ plainScreen mode.1 mode.2 (.finite 1)

/-- `query_screen_info`: the first source that knows a resolution, and else one that is assumed. -/
def queryScreenInfo : ScreenInfo :=
  match env.detectScreenFromRandr with
  | some info => info
  | none =>
    match env.x11 with
    | some size => plainScreen size.1.toUInt32 size.2.toUInt32 env.detectX11Scale
    | none => env.detectScreenFromDrm.getD (plainScreen 1920 1080 (.finite 1))

/-- The screen of `Daemon::new`. -/
def localScreen (scaleOverride : Option F64) : ScreenInfo :=
  applyScaleOverride scaleOverride env.queryScreenInfo

end ScreenEnv

/-! ### One division -/

/-- What a source gives: a resolution, a scale, and whether it divides the one by the other. -/
structure Source where
  size : UInt32 × UInt32
  scale : F64
  divides : Bool

namespace Source

variable (src : Source)

/-- What the source itself divides by. -/
def ownDivisor : F64 := if src.divides then src.scale else .finite 1

/-- What the resolution is divided by in the end: the `--scale` where `Daemon::new` divides by it,
and otherwise what the source has divided by. -/
def divisor (scaleOverride : Option F64) : F64 :=
  match scaleOverride with
  | none => src.ownDivisor
  | some s => if s.isAboveOne && src.scale.isOne then s else src.ownDivisor

/-- The screen that a source makes. -/
structure Yields (screen : ScreenInfo) : Prop where
  width : screen.width = Randr.logical src.size.1 src.ownDivisor
  height : screen.height = Randr.logical src.size.2 src.ownDivisor
  scaleFactor : screen.scaleFactor = src.scale

variable {src} {screen : ScreenInfo}

/-- A source with the scale one divides by one. -/
theorem ownDivisor_of_isOne (h : src.scale.isOne) : src.ownDivisor = .finite 1 := by
  rw [ownDivisor, of_decide_eq_true h, ite_self]

/-- The screen has the resolution of its source, divided once. -/
theorem Yields.sides (h : src.Yields screen) (scaleOverride : Option F64) :
    (applyScaleOverride scaleOverride screen).width =
        Randr.logical src.size.1 (src.divisor scaleOverride) ∧
      (applyScaleOverride scaleOverride screen).height =
        Randr.logical src.size.2 (src.divisor scaleOverride) := by
  rcases scaleOverride with _ | s
  · exact ⟨h.width, h.height⟩
  · rw [applyScaleOverride, divisor, h.scaleFactor]
    by_cases hs : (s.isAboveOne && src.scale.isOne) = true
    · have hone := ownDivisor_of_isOne (Bool.and_eq_true_iff.1 hs).2
      rw [if_pos hs, if_pos hs]
      show Randr.logical screen.width s = _ ∧ Randr.logical screen.height s = _
      rw [h.width, h.height, hone, logical_one, logical_one]
      exact ⟨rfl, rfl⟩
    · rw [if_neg hs, if_neg hs]
      exact ⟨h.width, h.height⟩

/-- A quotient is usable exactly when the divisor fits, also of an empty side. -/
theorem logical_usable_iff_fitsSide (size : UInt32) (d : F64) :
    1 ≤ (Randr.logical size d).toNat ∧ ((Randr.logical size d).toNat : ℤ) ≤ i32Max ↔
      FitsSide size d := by
  rcases Nat.eq_zero_or_pos size.toNat with hzero | hpos
  · obtain rfl : size = 0 := UInt32.toNat_inj.1 hzero
    refine iff_of_false (fun h ↦ ?_) fun h ↦ ?_
    · have hempty : Randr.logical 0 d = 0 := by
        rcases d with _ | negative | q
        · rfl
        · simp [Randr.logical, F64.ofU32, F64.div, F64.asU32, Rat.trunc]
        · by_cases hq : q = 0
          · simp [Randr.logical, F64.ofU32, F64.div, F64.asU32, hq]
          · simp [Randr.logical, F64.ofU32, F64.div, F64.asU32, hq, Rat.trunc]
      rw [hempty] at h
      exact absurd h.1 (by decide)
    · rcases d with _ | negative | q
      · exact h
      · exact h
      · have hle : q ≤ 0 := by simpa using h.2.1
        exact absurd h.1 hle.not_gt
  · exact logical_usable_iff hpos d

/-- The screen that comes of a source is usable exactly when the one divisor fits. -/
theorem Yields.usable_iff_fits (h : src.Yields screen) (scaleOverride : Option F64) :
    (applyScaleOverride scaleOverride screen).Usable ↔
      Fits src.size (src.divisor scaleOverride) := by
  obtain ⟨hwidth, hheight⟩ := h.sides scaleOverride
  rw [Fits, ← logical_usable_iff_fitsSide, ← logical_usable_iff_fitsSide, ← hwidth, ← hheight]
  exact ⟨fun u ↦ ⟨⟨u.1, u.2⟩, u.3, u.4⟩, fun u ↦ ⟨u.1.1, u.1.2, u.2.1, u.2.2⟩⟩

/-- What a display tool gives. -/
def ofRandr (randr : Randr) (text : List Char) : Option Source :=
  if (randr.parse text).isSome then some ⟨randr.lastMode text, randr.lastScale text, true⟩ else none

/-- A display tool that gives a screen is such a source. -/
theorem yields_ofRandr {randr : Randr} {text : List Char} (h : randr.parse text = some screen) :
    ∃ src, ofRandr randr text = some src ∧ src.Yields screen := by
  obtain ⟨-, -, hwidth, hheight, hscale⟩ := randr.parse_eq_some text h
  refine ⟨⟨randr.lastMode text, randr.lastScale text, true⟩, if_pos ?_, hwidth, hheight, hscale⟩
  rw [h]
  rfl

/-- So is anything that gives a resolution and does not divide it. -/
theorem yields_plainScreen (width height : UInt32) (scale : F64) :
    Yields ⟨(width, height), scale, false⟩ (ScreenEnv.plainScreen width height scale) :=
  ⟨(logical_one width).symm, (logical_one height).symm, rfl⟩

end Source

namespace ScreenEnv

variable (env : ScreenEnv)

/-- The source that a display tool is. -/
def randrSource : Option Source :=
  match env.cosmicRandr, env.wlrRandr with
  | some stdout, _ => Source.ofRandr Kmflow.cosmicRandr (toolText stdout)
  | none, some stdout => Source.ofRandr Kmflow.wlrRandr (toolText stdout)
  | none, none => none

/-- The source that is used. -/
def source : Source :=
  env.randrSource.getD <|
    match env.x11 with
    | some size => ⟨(size.1.toUInt32, size.2.toUInt32), env.detectX11Scale, false⟩
    | none => ⟨(env.drm.bind (List.findSome? drmMode)).getD (1920, 1080), .finite 1, false⟩

/-- The display tools give a screen together with its source, or neither. -/
theorem randrSource_cases :
    (∃ src screen, env.randrSource = some src ∧ env.detectScreenFromRandr = some screen ∧
      src.Yields screen) ∨ env.randrSource = none ∧ env.detectScreenFromRandr = none := by
  have htool (randr : Randr) (text : List Char) :
      (∃ src screen, Source.ofRandr randr text = some src ∧ randr.parse text = some screen ∧
        src.Yields screen) ∨ Source.ofRandr randr text = none ∧ randr.parse text = none := by
    rcases hparse : randr.parse text with _ | screen
    · exact .inr ⟨if_neg (by rw [hparse]; exact Bool.false_ne_true), rfl⟩
    · obtain ⟨src, hsrc, hyields⟩ := Source.yields_ofRandr hparse
      exact .inl ⟨src, screen, hsrc, rfl, hyields⟩
  rw [randrSource, detectScreenFromRandr]
  rcases env.cosmicRandr with _ | stdout
  · rcases env.wlrRandr with _ | stdout
    · exact .inr ⟨rfl, rfl⟩
    · exact htool Kmflow.wlrRandr (toolText stdout)
  · exact htool Kmflow.cosmicRandr (toolText stdout)

/-- **The screen that is found is that of its source.** -/
theorem yields_source : env.source.Yields env.queryScreenInfo := by
  rw [source, queryScreenInfo]
  rcases env.randrSource_cases with ⟨src, screen, hsrc, hscreen, hyields⟩ | ⟨hsrc, hscreen⟩
  · rw [hsrc, hscreen]
    exact hyields
  · rw [hsrc, hscreen, Option.getD_none]
    rcases env.x11 with _ | size
    · rw [detectScreenFromDrm]
      rcases env.drm with _ | connectors
      · exact Source.yields_plainScreen 1920 1080 (.finite 1)
      · rw [Option.bind_some, Option.bind_some]
        rcases connectors.findSome? drmMode with _ | mode
        · exact Source.yields_plainScreen 1920 1080 (.finite 1)
        · exact Source.yields_plainScreen mode.1 mode.2 (.finite 1)
    · exact Source.yields_plainScreen size.1.toUInt32 size.2.toUInt32 env.detectX11Scale

/-- **The daemon is safe exactly when one divisor fits.** Whatever the sources give, the session of
a new daemon never panics and has its cursor on the screen throughout if and only if what the
resolution is divided by is positive, not above either side, and large enough for both sides. -/
theorem safe_iff (scaleOverride : Option F64) :
    Session.Safe (env.localScreen scaleOverride) ↔
      Fits env.source.size (env.source.divisor scaleOverride) := by
  rw [Session.safe_iff_usable, localScreen]
  exact env.yields_source.usable_iff_fits scaleOverride

end ScreenEnv

end Kmflow
