import Partitura.ManuScript.Language

/-!
# Functions and constants
-/

namespace Partitura.ManuScript.Reference

/-- The functions that belong to no object. -/
def functions : List Function :=
  [⟨"Abs", ["number"]⟩, ⟨"Asc", ["char"]⟩, ⟨"CharAt", ["string", "index"]⟩, ⟨"Chr", ["code"]⟩,
   ⟨"CreateArray", []⟩, ⟨"CreateDictionary", []⟩, ⟨"CreateHash", []⟩, ⟨"CreateSparseArray", []⟩,
   ⟨"IsObject", ["value"]⟩, ⟨"JoinStrings", ["array", "separator"]⟩, ⟨"Length", ["string"]⟩,
   ⟨"Max", ["a", "b"]⟩, ⟨"Min", ["a", "b"]⟩, ⟨"Pos", ["source", "search"]⟩, ⟨"RandomNumber", []⟩,
   ⟨"RandomSeed", ["seed"]⟩, ⟨"Replace", ["source", "find", "replace", "case_sensitive"]⟩,
   ⟨"Round", ["number"]⟩, ⟨"RoundDown", ["number"]⟩, ⟨"RoundUp", ["number"]⟩,
   ⟨"SplitString", ["string", "separator"]⟩, ⟨"StopPlugin", []⟩,
   ⟨"Substring", ["string", "start", "length?"]⟩, ⟨"Trace", ["message"]⟩, ⟨"TypeOf", ["object"]⟩]

/-- The names of the constants. -/
def constants : List String :=
  ["AccentArtic", "AccidentalSymbols", "AccordionSymbols", "AllStyles", "Alto", "Arpeggio", "Arrow",
   "ArrowDownNoteStyle", "ArrowUpNoteStyle", "ArticulationSymbols", "BackSlashedNoteStyle",
   "BarNumberFormatNormal", "BarNumberFormatNumberLetterLower",
   "BarNumberFormatNumberLetterUpper", "Bass", "Beam", "BeatNoteStyle", "BeatWithoutStemNoteStyle",
   "BeaterPercussionSymbols", "BlackAndWhiteDiamondNoteStyle", "Box", "BracketBrace", "BracketFull",
   "BracketSub", "Bracketed", "BracketedAcc", "BracketedTrillSymbol", "BreakSymbols", "Breve",
   "BreveBarRest", "CaesuraSymbol", "CautionaryAcc", "Chord", "ChromaticPercussionSymbols",
   "ClefSymbols", "Clefs", "CodaSymbol", "CommaSymbol", "Common", "Composer", "ConductorSymbols",
   "ContinueBeam", "Crescendo", "CrossNoteStyle", "CrossOrDiamondNoteStyle", "Crotchet",
   "CueGraceNoteSize", "CueNoteStyle", "CueSize", "Custom1Artic", "Custom2Artic", "Custom3Artic",
   "CustomChordNames", "Dashed", "Dedication", "Default", "DefaultPartAppearance", "Demisemiquaver",
   "DiamondNoteStyle", "Dictionary", "Diminuendo", "DocumentSetupUnitsInches",
   "DocumentSetupUnitsPoints", "DocumentSetupUnitsmm", "Dotted", "DottedBreve", "DottedCrotchet",
   "DottedEighth", "DottedHalf", "DottedMinim", "DottedQuarter", "DottedQuaver", "DottedSemiquaver",
   "DottedSixteenth", "DottedWhole", "DoubleSharp", "DoubleTremolosBetweenStems",
   "DoubleTremolosOuterTremoloTouchingStems", "DoubleTremolosTouchingStems", "DownBowArtic",
   "DrumPercussionSymbols", "Eighth", "EndOfPage", "EndOfSystem", "EndOfSystemOrPage", "EndOfWord",
   "EndsMultirest", "EveryNthBar", "EverySystem", "Expression", "ExtraSmallSize", "False",
   "FeatheredBeamAccel", "FeatheredBeamNone", "FeatheredBeamRit", "Fingering", "Footnote",
   "FourBarRepeat", "GeneralSymbols", "Glissando", "GraceNoteSize", "Guitar", "GuitarSymbols",
   "Half", "HalfMuted", "HandbellSymbols", "HarmonicArtic", "Hauptstimme", "HeadlessNoteStyle",
   "HeelOneSymbol", "HeelTwoSymbol", "Hemidemisemiquaver", "HiddenAcc", "House", "Instrument",
   "InstrumentNamesFull", "InstrumentNamesNone", "InstrumentNamesShort", "InstrumentsAndEnsembles",
   "Interval2xAugmented", "Interval2xDiminished", "Interval3xAugmented", "Interval3xDiminished",
   "Interval4xAugmented", "Interval4xDiminished", "Interval5xAugmented", "Interval5xDiminished",
   "IntervalAugmented", "IntervalDiatonic", "IntervalDiminished", "IntervalMajor", "IntervalMinor",
   "IntervalPerfect", "InvertedMordentSymbol", "InvertedTriangleNoteStyle",
   "InvertedTripleMordentSymbol", "InvertedTurnSymbol", "KeyboardSymbols", "LiftPedalSymbol",
   "Line", "Lines", "Long", "Lyrics", "MarcatoArtic", "MediumSize", "MetallicPercussionSymbols",
   "Metronome", "MidMultirest", "MiddleOfPage", "MiddleOfSystem", "MiddleOfWord", "Minim",
   "MiscellaneousSymbols", "Molto", "MordentSymbol", "Multirests", "MusicRestartsAfterXPages",
   "MusicRestartsOnNextLeftPage", "MusicRestartsOnNextRightPage", "Muted", "Nashville", "Natural",
   "Nebenstimme", "NoBarNumbers", "NoBeam", "NoMultirest", "NoPageBreak", "NormalAcc",
   "NormalNoteStyle", "NormalSize", "NotEndOfSystem", "NotMuted", "NoteSymbols", "NoteheadSymbols",
   "Noteheads", "Null", "OctaveSymbols", "OneBarRepeat", "OrientationLandscape",
   "OrientationPortrait", "OrnamentSymbols", "OtherPercussionSymbols", "PageMarginsDifferent",
   "PageMarginsMirrored", "PageMarginsSame", "PageNumberFormatLetterLower",
   "PageNumberFormatNormal", "PageNumberFormatRomanLower", "PageNumberFormatRomanUpper",
   "PageNumberHideAll", "PageNumberHideFirst", "PageNumberShowAll", "PageSize10x13",
   "PageSize9_5x12_5", "PageSizeA3", "PageSizeA4", "PageSizeA5", "PageSizeB4", "PageSizeB5",
   "PageSizeConcert", "PageSizeCustom", "PageSizeExecutive", "PageSizeFolio", "PageSizeHymn",
   "PageSizeLegal", "PageSizeLetter", "PageSizeOctavo", "PageSizeQuarto", "PageSizeStatement",
   "PageSizeTabloid", "PageSizeUSBand", "PauseArtic", "Pedal", "PedalPSymbol", "PedalSymbol",
   "PedalUpSymbol", "Percussion", "PercussionTechniqueSymbols", "PlusArtic", "Portamento",
   "Quarter", "Quaver", "Rehearsal", "Repeat", "RepeatBarSymbol", "RepeatBeatSymbol",
   "RepeatSymbols", "RepeatTwoBarsSymbol", "RestSymbols", "ReversedTurnSymbol", "Rules",
   "ScaleType7thArpeggio", "ScaleTypeAlteredDominant", "ScaleTypeAugmentedArpeggio",
   "ScaleTypeDiminished7thArpeggio", "ScaleTypeDiminishedWholeHalf", "ScaleTypeDominantBebop",
   "ScaleTypeDorian", "ScaleTypeHarmonicMinor", "ScaleTypeLocrian", "ScaleTypeLocrianSharp2",
   "ScaleTypeLydian", "ScaleTypeLydianFlat7", "ScaleTypeLydianSharp5", "ScaleTypeMajor",
   "ScaleTypeMajor7thArpeggio", "ScaleTypeMajorBebop", "ScaleTypeMajorPentatonic",
   "ScaleTypeMelodicMinor", "ScaleTypeMin7Flat5Arpeggio", "ScaleTypeMinor",
   "ScaleTypeMinorPentatonic", "ScaleTypeMixolydian", "ScaleTypeOther", "ScaleTypePhrygian",
   "ScaleTypePhrygianDominant", "ScaleTypeWholeTone", "ScalrTypeDiminishedHalfWhole", "SegnoSymbol",
   "Semibreve", "Semiquaver", "ShapedNote1NoteStyle", "ShapedNote2NoteStyle",
   "ShapedNote3NoteStyle", "ShapedNote4StemDownNoteStyle", "ShapedNote4StemUpNoteStyle",
   "ShapedNote5NoteStyle", "ShapedNote6NoteStyle", "ShapedNote7NoteStyle", "Sharp",
   "SilentNoteStyle", "SingleBeam", "Sixteenth", "SixtyFourth", "SlashedNoteStyle", "SmallSize",
   "Soprano", "Space", "SpacingRule", "Special", "SpecialBarlineBetweenStaves",
   "SpecialBarlineDashed", "SpecialBarlineDotted", "SpecialBarlineDouble",
   "SpecialBarlineEndRepeat", "SpecialBarlineFinal", "SpecialBarlineInvisible",
   "SpecialBarlineNormal", "SpecialBarlineShort", "SpecialBarlineStartRepeat",
   "SpecialBarlineThick", "SpecialBarlineTick", "SpecialBarlineTriple", "SpecialPageBreak",
   "SquarePauseArtic", "StaccatissimoArtic", "StaccatoArtic", "StaffHeight", "StartBeam",
   "StartsMultirest", "StemlessNoteStyle", "String", "Symbols", "Tab", "Tablature", "Technique",
   "TechniqueSymbols", "Tempo", "Tenor", "TenutoArtic", "Text", "ThickCaesuraSymbol",
   "ThirtySecond", "TickSymbol", "Tie", "Time", "Timecode", "Title", "ToeOneSymbol", "ToeTwoSymbol",
   "Treble", "TriPauseArtic", "Trill", "TrillSymbol", "TripleMordentSymbol", "True", "Tuplet",
   "TupletBracketAuto", "TupletBracketOff", "TupletBracketOn", "TupletLeft", "TupletLeftRight",
   "TupletLeftRightNote", "TupletNoNumber", "Tuplets", "TurnSymbol", "TwoBarRepeat", "UpBowArtic",
   "Vertical", "Vibrato", "WedgeArtic", "Whole", "WholeBarRest", "Wide"]

end Partitura.ManuScript.Reference
