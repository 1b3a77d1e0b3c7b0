import Partitura.ManuScript.Language

/-!
# Types of objects, G to M
-/

namespace Partitura.ManuScript.Reference

/-- The type `GuitarFrame`. -/
def guitarFrameType : ObjectType where
  name := "GuitarFrame"
  methods :=
    [.one "CopyOutSuffixes" 0 0, .one "GetChromaticPitchesOfChordInClosePosition" 1 1,
     .one "GetEndStringForNthBarre" 1 1, .one "GetPositionOfFingerForNthBarre" 1 1,
     .one "GetPositionOfFingerOnNthString" 1 1, .one "GetStartStringForNthBarre" 1 1,
     .one "IsNthStringPartOfBarre" 1 1, .one "NthStringHasClosedMarkingAtNut" 1 1,
     .one "NthStringHasOpenMarkingAtNut" 1 1]
  properties :=
    ["BassAsString", "ChordNameAsPlainText", "ChordNameAsStyledString", "ChromaticBass",
     "ChromaticRoot", "DiatonicBass", "DiatonicRoot", "Fingerings", "FrameIsVisible", "Horizontal",
     "LowestVisibleFret", "NumBarresInChord", "NumPitchesInClosePosition", "NumberOfFrets",
     "NumberOfStrings", "Recognized", "RootAsString", "ScaleFactor", "ShowFingerings", "SuffixText",
     "TextIsVisible", "TransposingBassAsString", "TransposingChromaticBass",
     "TransposingChromaticRoot", "TransposingDiatonicBass", "TransposingDiatonicRoot",
     "TransposingRootAsString"]

/-- The type `GuitarScaleDiagram`. -/
def guitarScaleDiagramType : ObjectType where
  name := "GuitarScaleDiagram"
  methods :=
    [.one "GetDotFingeringsOnNthString" 1 1, .one "GetDotSymbolsOnNthString" 1 1,
     .one "GetPitchOfNthString" 1 1, .one "GetPitchesOfDotsOnNthString" 1 1]
  properties :=
    ["Fingerings", "Horizontal", "LowestVisibleFret", "NumberOfFrets", "NumberOfStrings", "Root",
     "ScaleFactor", "ScaleType"]

/-- The type `HitPoint`. -/
def hitPointType : ObjectType where
  name := "HitPoint"
  properties := ["Bar", "Label", "Position"]

/-- The type `HitPointList`. -/
def hitPointListType : ObjectType where
  name := "HitPointList"
  methods := [.one "Clear" 0 0, .one "CreateHitPoint" 2 2, .one "Remove" 1 1, .one "ShiftTimes" 1 1]

/-- The type `InstrumentChange`. -/
def instrumentChangeType : ObjectType where
  name := "InstrumentChange"
  properties :=
    ["FullInstrumentName", "FullInstrumentNameWithFormatting", "FullStaffName",
     "FullStaffNameWithFormatting", "ShortInstrumentName", "ShortInstrumentNameWithFormatting",
     "ShortStaffName", "ShortStaffNameWithFormatting", "StyleIdword"]

/-- The type `InstrumentType`. -/
def instrumentTypeType : ObjectType where
  name := "InstrumentType"
  methods := [.one "Clone" 0 0, .one "PitchOfNthString" 1 1]
  properties :=
    ["Balance", "Category", "ChromaticTransposition", "ChromaticTranspositionInScore",
     "ComfortableRangeHigh", "ComfortableRangeLow", "ConcertClefStyleId", "DefaultSoundId",
     "DialogName", "DiatonicTransposition", "DiatonicTranspositionInScore", "FullName",
     "HasBracket", "HasKeySignatureOrTuning", "InstrumentTypeForChordDiagrams", "IsVocal",
     "NumStaveLines", "NumStrings", "OtherClefStyleId", "Pan", "ProfessionalRangeHigh",
     "ProfessionalRangeLow", "ShortName", "StyleId"]

/-- The type `IsSystemStaff`. -/
def isSystemStaffType : ObjectType where
  name := "IsSystemStaff"
  properties :=
    ["EraseBackground", "EraseBackgroundOverridden", "InitialFontName", "InitialFontSize",
     "JumpAtEndOfBar", "StyleAsText", "StyleId", "Text", "TextWithFormatting"]

/-- The type `KeySignature`. -/
def keySignatureType : ObjectType where
  name := "KeySignature"
  properties := ["AsText", "IsOneStaffOnly"]

/-- The type `Line`. -/
def lineType : ObjectType where
  name := "Line"
  properties := ["Duration", "EndBarNumber", "EndPosition", "RhDx", "RhDy"]

/-- The type `LyricItem`. -/
def lyricItemType : ObjectType where
  name := "LyricItem"
  properties := ["Duration", "NumNotes", "StyleAsText", "StyleId", "SyllableType"]

end Partitura.ManuScript.Reference
