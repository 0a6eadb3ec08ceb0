import Kmflow.Daemon.Screen

/-!
# Listings in colour, and of several monitors

What `parse_cosmic_randr` and `parse_wlr_randr` make of a listing that is not the plain one of a
single monitor.

Colour does not matter: `ansi_re` takes out every sequence from its escape to the next `m`, wherever
it stands, so the parser sees the text without it (`parseCosmicRandr_coloured`).

Several monitors do. The loop variables are shared by all of them, and each ends with the last value
that a line gives: the resolution of the last monitor with a current mode, and the scale of the last
monitor with a `Scale` line. So the two belong to one monitor exactly when some monitor has both
(`sameMonitor_iff`), as the only monitor of a listing does.
-/

namespace Kmflow

/-! ### Colour codes -/

/-- An escape, a bracket, and what comes before the `m`. -/
structure ColourCode where
  params : List Char
  notMem : 'm' ∉ params

/-- How a terminal is told the colour. -/
def ColourCode.text (code : ColourCode) : List Char := '\x1b' :: '[' :: (code.params ++ ['m'])

/-- A text in pieces, without the colour codes between them. -/
def plain (first : List Char) (rest : List (ColourCode × List Char)) : List Char :=
  first ++ rest.flatMap Prod.snd

/-- The text with the colour codes. -/
def coloured (first : List Char) (rest : List (ColourCode × List Char)) : List Char :=
  first ++ rest.flatMap fun piece ↦ piece.1.text ++ piece.2

/-- A piece without an escape is left alone. -/
theorem stripAnsi_append {piece : List Char} (hpiece : '\x1b' ∉ piece) (rest : List Char) :
    stripAnsi false (piece ++ rest) = piece ++ stripAnsi false rest := by
  induction piece with
  | nil => rfl
  | cons c cs ih =>
    obtain ⟨hc, hcs⟩ := List.ne_and_not_mem_of_not_mem_cons hpiece
    rw [List.cons_append, stripAnsi, if_neg Bool.false_ne_true, if_neg hc.symm, ih hcs,
      List.cons_append]

/-- Within a code everything is taken out, up to the `m`. -/
theorem stripAnsi_params {params : List Char} (hparams : 'm' ∉ params) (rest : List Char) :
    stripAnsi true (params ++ 'm' :: rest) = stripAnsi false rest := by
  induction params with
  | nil => rfl
  | cons c cs ih =>
    obtain ⟨hc, hcs⟩ := List.ne_and_not_mem_of_not_mem_cons hparams
    rw [List.cons_append, stripAnsi, if_pos rfl, bne_iff_ne.2 hc.symm, ih hcs]

/-- A colour code is taken out whole. -/
theorem stripAnsi_code (code : ColourCode) (rest : List Char) :
    stripAnsi false (code.text ++ rest) = stripAnsi false rest := by
  rw [ColourCode.text, List.cons_append, List.cons_append, List.append_assoc, stripAnsi,
    if_neg Bool.false_ne_true, if_pos rfl, stripAnsi, if_pos rfl]
  exact stripAnsi_params code.notMem rest

/-- **The colour codes are what is taken out.** -/
theorem stripAnsi_coloured {first : List Char} {rest : List (ColourCode × List Char)}
    (h : '\x1b' ∉ plain first rest) : stripAnsi false (coloured first rest) = plain first rest := by
  rw [plain, List.mem_append, not_or] at h
  obtain ⟨hfirst, hrest⟩ := h
  rw [coloured, plain, stripAnsi_append hfirst]
  congr 1
  induction rest with
  | nil => rfl
  | cons piece rest ih =>
    rw [List.flatMap_cons, List.mem_append, not_or] at hrest
    rw [List.flatMap_cons, List.append_assoc, stripAnsi_code, stripAnsi_append hrest.1,
      ih hrest.2, List.flatMap_cons]

/-- What is read depends on the cleaned text alone. -/
theorem Randr.parse_congr (randr : Randr) {text text' : List Char}
    (h : randr.clean text = randr.clean text') : randr.parse text = randr.parse text' := by
  rw [parse, parse, read, read, h]

/-- **Colours do not matter.** For every text without escapes, and colour codes wherever they are
put, `parse_cosmic_randr` makes the same of both. -/
theorem parseCosmicRandr_coloured {first : List Char} {rest : List (ColourCode × List Char)}
    (h : '\x1b' ∉ plain first rest) :
    parseCosmicRandr (coloured first rest) = parseCosmicRandr (plain first rest) := by
  refine cosmicRandr.parse_congr ?_
  have hplain := stripAnsi_append h []
  rw [List.append_nil, stripAnsi, List.append_nil] at hplain
  exact (stripAnsi_coloured h).trans hplain.symm

/-- Bold green, as a tool prints it. -/
def green : ColourCode := ⟨"1;32".toList, by decide⟩

/-- Back to no colour. -/
def resetCode : ColourCode := ⟨"0".toList, by decide⟩

/-- Codes within a word, within a number, and at the end of a line. -/
def colouredPieces : List (ColourCode × List Char) :=
  [(green, "le: 1".toList), (resetCode, "50%".toList), (resetCode, "\n1920x10".toList),
    (green, "80 (curr".toList), (green, "ent)".toList)]

/-- Colours in the middle of words and numbers do not show. -/
theorem parseCosmicRandr_colouredPieces :
    parseCosmicRandr (coloured "Sca".toList colouredPieces) =
      parseCosmicRandr (plain "Sca".toList colouredPieces) :=
  parseCosmicRandr_coloured (by decide)

/-! ### Several monitors -/

/-- The lines of one monitor, with at most one current mode and at most one scale among them. -/
structure Monitor (randr : Randr) where
  lines : List (List Char)
  mode_le : (lines.filterMap randr.mode).length ≤ 1
  scale_le : (lines.filterMap randr.scale).length ≤ 1

namespace Monitor

variable {randr : Randr}

/-- The current mode of the monitor, if it has one. -/
def mode (monitor : Monitor randr) : Option (UInt32 × UInt32) :=
  (monitor.lines.filterMap randr.mode).head?

/-- What the `Scale` line says. -/
def scaleLine (monitor : Monitor randr) : Option F64 :=
  (monitor.lines.filterMap randr.scale).head?

/-- `1.0` without such a line. -/
def scale (monitor : Monitor randr) : F64 := monitor.scaleLine.getD (.finite 1)

/-- The mode of the last monitor that has one. -/
def lastMode (monitors : List (Monitor randr)) : Option (UInt32 × UInt32) :=
  (monitors.filterMap mode).getLast?

/-- The scale of the last monitor that gives one. -/
def lastScale (monitors : List (Monitor randr)) : F64 :=
  (monitors.filterMap scaleLine).getLastD (.finite 1)

/-- A monitor has both, unless there is no resolution or it is empty. -/
def Paired (monitors : List (Monitor randr)) : Prop :=
  ∀ mode ∈ lastMode monitors, 0 < mode.1 → 0 < mode.2 →
    ∃ monitor ∈ monitors, monitor.mode = some mode ∧ monitor.scale = lastScale monitors

instance : DecidablePred (@Paired randr) :=
  fun monitors ↦ Option.decidableForallMem (lastMode monitors)

/-- A single monitor has both. -/
theorem paired_singleton (monitor : Monitor randr) : Paired [monitor] := by
  intro mode hmode _ _
  refine ⟨monitor, .head _, ?_, ?_⟩
  · rw [lastMode, List.filterMap_cons, List.filterMap_nil] at hmode
    cases h : monitor.mode with
    | none => rw [h] at hmode; cases hmode
    | some m => rw [h] at hmode; exact hmode
  · rw [scale, lastScale, List.filterMap_cons, List.filterMap_nil]
    cases monitor.scaleLine <;> rfl

/-- At most one value for each monitor. -/
theorem filterMap_flatMap_lines {β : Type} (f : List Char → Option β)
    (monitors : List (Monitor randr))
    (h : ∀ monitor ∈ monitors, (monitor.lines.filterMap f).length ≤ 1) :
    (monitors.flatMap lines).filterMap f =
      monitors.filterMap fun monitor ↦ (monitor.lines.filterMap f).head? := by
  rw [List.filterMap_flatMap, List.filterMap_eq_flatMap_toList]
  refine List.flatMap_congr fun monitor hmonitor ↦ ?_
  have hle := h monitor hmonitor
  cases hvalues : monitor.lines.filterMap f with
  | nil => rfl
  | cons value values =>
    rw [hvalues, List.length_cons] at hle
    rw [List.eq_nil_of_length_eq_zero (by omega : values.length = 0)]
    rfl

end Monitor

namespace Randr

variable (randr : Randr)

/-- The resolution that is used, the scale it is divided by and the scale that is returned are those
of one monitor. -/
def OneMonitor (monitors : List (Monitor randr)) (text : List Char) : Prop :=
  ∀ screen ∈ randr.parse text, ∃ monitor ∈ monitors,
    monitor.mode = some (randr.read text).mode ∧ monitor.scale = (randr.read text).scale ∧
      screen.width = logical (randr.read text).mode.1 monitor.scale ∧
      screen.height = logical (randr.read text).mode.2 monitor.scale ∧
      screen.scaleFactor = monitor.scale

variable {randr} {monitors : List (Monitor randr)} {text : List Char}

/-- **What the shared variables end with**: the last mode and the last scale, of any monitor. -/
theorem read_eq_last (hlines : randr.lines text = monitors.flatMap Monitor.lines) :
    randr.read text =
      ⟨Monitor.lastScale monitors, (Monitor.lastMode monitors).getD (0, 0)⟩ := by
  rw [read_eq, Randr.lastScale, Randr.lastMode, hlines,
    Monitor.filterMap_flatMap_lines _ _ fun monitor _ ↦ monitor.scale_le,
    Monitor.filterMap_flatMap_lines _ _ fun monitor _ ↦ monitor.mode_le,
    List.getLastD_eq_getLast?, List.getLastD_eq_getLast?, Monitor.lastScale,
    List.getLastD_eq_getLast?]
  rfl

/-- The screen is that of one monitor exactly when some monitor has both values. -/
theorem oneMonitor_iff_paired (hlines : randr.lines text = monitors.flatMap Monitor.lines) :
    randr.OneMonitor monitors text ↔ Monitor.Paired monitors := by
  have hread := read_eq_last hlines
  rw [OneMonitor, Monitor.Paired, parse, hread]
  cases hmode : Monitor.lastMode monitors with
  | none =>
    constructor
    · intro _ mode' hmode'
      cases hmode'
    · intro _ screen hscreen
      cases hscreen
  | some mode =>
    dsimp only [Option.getD_some]
    constructor
    · intro hone mode' hmode' hwidth hheight
      obtain rfl := Option.some.inj hmode'
      obtain ⟨monitor, hmonitor, hused, hscale, -⟩ := hone _ (if_pos ⟨hwidth, hheight⟩)
      exact ⟨monitor, hmonitor, hused, hscale⟩
    · intro hpaired screen hscreen
      obtain ⟨⟨hwidth, hheight⟩, hscreen⟩ := Option.ite_none_right_eq_some.1 hscreen
      obtain rfl := Option.some.inj hscreen
      obtain ⟨monitor, hmonitor, hused, hscale⟩ := hpaired mode rfl hwidth hheight
      refine ⟨monitor, hmonitor, hused, hscale, ?_, ?_, hscale.symm⟩
      · rw [hscale]
      · rw [hscale]

end Randr

/-- **When resolution and scale describe the same monitor**, for everything either tool can print
and however its lines are divided into monitors with at most one current mode and one scale each:
exactly when some monitor has the mode of the last one with a current mode and, counting `1.0`
for a missing `Scale` line, the scale of the last one with such a line. -/
theorem oneMonitor_iff (text : List Char) (cosmic : List (Monitor cosmicRandr))
    (wlr : List (Monitor wlrRandr)) :
    (cosmicRandr.lines text = cosmic.flatMap Monitor.lines →
      (cosmicRandr.OneMonitor cosmic text ↔ Monitor.Paired cosmic)) ∧
    (wlrRandr.lines text = wlr.flatMap Monitor.lines →
      (wlrRandr.OneMonitor wlr text ↔ Monitor.Paired wlr)) :=
  ⟨Randr.oneMonitor_iff_paired, Randr.oneMonitor_iff_paired⟩

/-- A listing of one monitor. -/
def laptop : Monitor cosmicRandr :=
  ⟨cosmicRandr.lines laptopText, by decide +kernel, by decide +kernel⟩

/-- One monitor whose scale stands above its mode. -/
def desktop : Monitor wlrRandr :=
  ⟨wlrRandr.lines monitorText, by decide +kernel, by decide +kernel⟩

/-- A listing of one monitor gives that monitor. -/
theorem oneMonitor_iff_single :
    cosmicRandr.OneMonitor [laptop] laptopText ∧ wlrRandr.OneMonitor [desktop] monitorText :=
  ⟨((oneMonitor_iff laptopText [laptop] []).1 (List.append_nil _).symm).2
      (Monitor.paired_singleton _),
    ((oneMonitor_iff monitorText [] [desktop]).2 (List.append_nil _).symm).2
      (Monitor.paired_singleton _)⟩

/-- A laptop at 200%, and a monitor without a scale. -/
def cosmicPairText : List Char :=
  "Scale: 200%\n2880x1800 (current)\n1920x1080 (current)".toList

/-- Two monitors, of which the second prints no scale, for `cosmic-randr`. -/
def cosmicPair : List (Monitor cosmicRandr) :=
  [⟨["Scale: 200%".toList, "2880x1800 (current)".toList], by decide +kernel, by decide +kernel⟩,
    ⟨["1920x1080 (current)".toList], by decide +kernel, by decide +kernel⟩]

/-- Two monitors, of which the second prints no scale, as `wlr-randr` prints them. -/
def wlrPairText : List Char :=
  "2880x1800 px (current)\nScale: 2.0\n1920x1080 px (current)".toList

/-- The monitors of `wlrPairText`. -/
def wlrPair : List (Monitor wlrRandr) :=
  [⟨["2880x1800 px (current)".toList, "Scale: 2.0".toList], by decide +kernel, by decide +kernel⟩,
    ⟨["1920x1080 px (current)".toList], by decide +kernel, by decide +kernel⟩]

/-- The resolution of the monitor is divided by the scale of the laptop. -/
theorem not_oneMonitor_pair :
    (cosmicRandr.lines cosmicPairText = cosmicPair.flatMap Monitor.lines ∧
      parseCosmicRandr cosmicPairText = some ⟨960, 540, .finite 2, ⟨.right, 0⟩⟩ ∧
        ¬ cosmicRandr.OneMonitor cosmicPair cosmicPairText) ∧
    (wlrRandr.lines wlrPairText = wlrPair.flatMap Monitor.lines ∧
      parseWlrRandr wlrPairText = some ⟨960, 540, .finite 2, ⟨.right, 0⟩⟩ ∧
        ¬ wlrRandr.OneMonitor wlrPair wlrPairText) := by
  have hcosmic : cosmicRandr.lines cosmicPairText = cosmicPair.flatMap Monitor.lines := by
    decide +kernel
  have hwlr : wlrRandr.lines wlrPairText = wlrPair.flatMap Monitor.lines := by decide +kernel
  refine ⟨⟨hcosmic, by decide +kernel, ?_⟩, hwlr, by decide +kernel, ?_⟩
  · rw [Randr.oneMonitor_iff_paired hcosmic]
    decide +kernel
  · rw [Randr.oneMonitor_iff_paired hwlr]
    decide +kernel

end Kmflow
