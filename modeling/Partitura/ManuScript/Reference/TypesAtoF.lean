import Partitura.ManuScript.Language

/-!
# Types of objects, A to F
-/

namespace Partitura.ManuScript.Reference

/-- The type `Bar`. -/
def barType : ObjectType where
  name := "Bar"
  methods :=
    [.one "AddBarNumber" 1 5, .one "AddChordSymbolFromPitches" 2 3, .one "AddClef" 2 3,
     .one "AddComment" 2 4, .one "AddCommentWithName" 3 5, .one "AddGraphic" 2 6,
     .one "AddGraphicToBlankPage" 4 5, .one "AddGuitarFrame" 2 4, .one "AddKeySignature" 3 6,
     .one "AddLine" 3 7, .one "AddLiveTempoTapPoint" 1 1, .one "AddLyric" 3 6, .one "AddNote" 6 7,
     .one "AddPageNumber" 0 1, .one "AddPageNumberAtStartOfBar" 0 0, .one "AddSpecialBarline" 1 2,
     .one "AddSymbol" 2 2, .one "AddText" 3 4, .one "AddTextToBlankPage" 5 5,
     .one "AddTimeSignature" 4 5, .one "AddTimeSignatureReturnObject" 4 5, .one "AddTuplet" 5 8,
     .one "Clear" 0 1, .one "ClearNotesAndModifiers" 0 1, .one "Delete" 0 0,
     .one "DeletePageNumber" 0 1, .one "GetClefAt" 1 1, .one "GetInstrumentTypeAt" 1 1,
     .one "GetKeySignatureAt" 1 1, .one "GetPageNumber" 0 1, .one "InsertBarRest" 1 2,
     .one "NthBarObject" 1 1, .one "RemoveLiveTempoTapPoint" 1 1, .one "ResetSpaceAroundBar" 2 2,
     .one "Respace" 0 0]
  properties :=
    ["BarNumber", "BarObjectCount", "BreakType", "ExternalBarNumber", "ExternalBarNumberString",
     "GapAfter", "GapBefore", "InMultirest", "Length", "MusicRestartsOnPage", "NthBarInSystem",
     "NumBlankPages", "NumBlankPagesBefore", "OnHiddenStave", "OnNthPage", "OnNthPageExternal",
     "OnNthSystem", "ParentStaff", "SectionEnd", "Selected", "SpecialPageBreakType"]

/-- The type `BarObject`. -/
def barObjectType : ObjectType where
  name := "BarObject"
  methods :=
    [.one "Delete" 0 0, .one "Deselect" 0 0, .one "FreezeMagneticLayoutPositions" 0 0,
     .one "GetIsInVoice" 1 1, .one "GetPlayedOnNthPass" 1 1, .one "NextItem" 1 2,
     .one "PreviousItem" 1 2, .one "RemoveVoice" 1 1, .one "ResetDesign" 0 0,
     .one "ResetPosition" 1 2, .one "Select" 0 0, .one "SetAllVoices" 0 0,
     .one "SetPlayedOnNthPass" 2 2, .one "SetVoice" 1 2, .one "ShowInAll" 0 0,
     .one "ShowInParts" 0 0, .one "ShowInScore" 0 0, .one "TimeOnNthPass" 1 1]
  properties :=
    ["CanBeInMultipleVoices", "Color", "ColorAlpha", "ColorBlue", "ColorGreen", "ColorRed",
     "CueSize", "CurrentTempo", "DrawOrder", "Dx", "Dy", "HasCustomDrawOrder", "Hidden",
     "OnNthBlankPage", "ParentBar", "Position", "Selected", "Time", "Type", "UsesMagneticLayout",
     "UsesMagneticLayoutSettingOverridden", "VoiceNumber", "Voices"]

/-- The type `BarRest`. -/
def barRestType : ObjectType where
  name := "BarRest"
  properties := ["PauseType"]

/-- The type `Barline`. -/
def barlineType : ObjectType where
  name := "Barline"
  properties := ["BottomStave", "BottomStaveNum"]

/-- The type `Barlines`. -/
def barlinesType : ObjectType where
  name := "Barlines"
  methods := [.one "AddBarline" 2 2, .one "ClearAll" 0 0, .one "DeleteNthBarline" 1 1]

/-- The type `Bracket`. -/
def bracketType : ObjectType where
  name := "Bracket"
  properties := ["BottomStave", "BottomStaveNum", "BracketType", "TopStave"]

/-- The type `Clef`. -/
def clefType : ObjectType where
  name := "Clef"
  properties := ["ClefStyle", "ConcertClefStyle", "ConcertClefStyleId", "StyleId"]

/-- The type `Comment`. -/
def commentType : ObjectType where
  name := "Comment"
  properties :=
    ["Maximized", "Text", "TextWithFormatting", "TextWithFormattingAsString", "TimeStamp"]

/-- The type `Data`. -/
def dataType : ObjectType where
  name := "Data"
  methods :=
    [.one "AddToPluginsMenu" 2 2, .one "Asc" 1 1, .one "CharAt" 2 2, .one "Chr" 1 1, .one "Cmd" 1 1,
     .one "CreateArray" 0 0, .one "CreateHash" 0 0, .one "ExitPlugin" 0 0,
     .one "GetInterpreterOption" 1 1, .one "GetValidationError" 1 1,
     .one "InterpreterOptionExists" 1 1, .one "IsObject" 1 1, .one "IsValid" 1 1,
     .one "JoinStrings" 2 2, .one "Length" 1 1, .one "Round" 1 1, .one "RoundDown" 1 1,
     .one "RoundUp" 1 1, .one "SetInterpreterOption" 1 2, .one "SplitString" 1 3,
     .one "StopPlugin" 0 1, .one "Substring" 2 3, .one "Trace" 1 1, .one "ValidationChecking" 1 4]
  properties :=
    ["Arithmetic", "Block", "Buttons", "Dictionary", "Expressions", "Identifier", "Indirection",
     "Loops", "Miscellaneous", "Objects", "Operators", "Reference", "Self", "Switch", "Syntax",
     "Undo", "While"]

/-- The type `DateTime`. -/
def dateTimeType : ObjectType where
  name := "DateTime"
  properties :=
    ["DayOfMonth", "Hours", "LongDate", "LongDateAndTime", "Minutes", "Month", "NthDayOfWeek",
     "NthDayOfYear", "Seconds", "ShortDate", "ShortDateAndTime", "TimeWithSeconds",
     "TimeWithoutSeconds", "Year"]

/-- The type `Dictionary`. -/
def dictionaryType : ObjectType where
  name := "Dictionary"
  methods :=
    [.one "CallMethod" 4 4, .one "GetMethodNames" 0 0, .one "GetPropertyNames" 0 0,
     .one "MethodExists" 1 1, .one "PropertyExists" 1 1, .one "SetMethod" 3 3]

/-- The type `DocumentSetup`. -/
def documentSetupType : ObjectType where
  name := "DocumentSetup"
  methods := [.one "CreateDefaultParts" 0 0, .one "CreatePartFromStaff" 1 1, .one "DeletePart" 1 1]
  properties :=
    ["AboveTopStaveGap", "AboveTopStaveGapAfterFirstPage", "BelowBottomStaveGap",
     "BelowBottomStaveGapAfterFirstPage", "DynamicPartCollection",
     "FirstPageHasUniqueVerticalStaveMargins", "MarginType", "Orientation", "PageBottomMargin",
     "PageHeight", "PageLeftMargin", "PageRightMargin", "PageSize", "PageTopMargin", "PageWidth",
     "RightPageLeftMargin", "RightPageRightMargin", "StaffLeftMarginFullNames",
     "StaffLeftMarginNoNames", "StaffLeftMarginShortNames", "StaffSize", "Units",
     "UnitsInDocumentSetupDialog"]

/-- The type `DynamicPart`. -/
def dynamicPartType : ObjectType where
  name := "DynamicPart"
  methods := [.one "AddStaffToPart" 1 1, .one "DeleteStaffFromPart" 1 1, .one "IncludesStaff" 1 1]
  properties := ["IsFullScore", "IsScoreSubset", "IsSelectedInPartsWindow", "StaveCount"]

/-- The type `EngravingRules`. -/
def engravingRulesType : ObjectType where
  name := "EngravingRules"
  methods := [.one "BarNumberFrequency" 1 2]
  properties :=
    ["AdjustTranspositionIfKeySigWraps", "BarlineJoinSystemEnd", "BarlineSingleStaves",
     "BarlineWidth", "BeamThickness", "CautionaryNaturalsInKeySignatures", "CueNoteScale",
     "DashedBarlineGap", "DashedBarlineLength", "DashedBarlineWidth", "DottedBarlineGap",
     "DottedBarlineWidth", "DoubleBarlineSeparation", "DoubleBarlineWidth", "DoubleTremoloStyle",
     "ExtraSpaceBetweenGroupsOfStaves", "ExtraSpacesAboveForSystemObjectPositions",
     "ExtraSpacesBelowVocalStaves", "FinalBarlineSeparation", "FinalBarlineThinWidth",
     "FinalBarlineWidth", "GraceNoteScale", "InstrumentNamesFirstSystem",
     "InstrumentNamesNewSections", "InstrumentNamesSubsequentSystems",
     "JustifyGrandStaveInstruments", "JustifyMultiStaveInstruments", "LegerLineThickness",
     "RepeatBarlineAllDots", "RepeatBarlineDoubleThick", "RepeatBarlineWings",
     "RespellRemoteKeysInTransposingScore", "ShowNameOfPrevailingInstrumentChangeAtStartOfSystems",
     "SlurMiddleThickness", "SlurOutlineWidth", "SmallStaffSizeScale", "SpacesBetweenStaves",
     "SpacesBetweenSystems", "StaffJustificationPercentage", "StaffLineWidth", "StemThickness",
     "ThickBarlineWidth"]

/-- The type `File`. -/
def fileType : ObjectType where
  name := "File"
  methods := [.one "Delete" 0 0, .one "Rename" 1 1]
  properties :=
    ["CreationDate", "CreationDateAndTime", "ModificationDate", "Name", "NameNoPath", "NameWithExt",
     "Path", "Type"]

/-- The type `Folder`. -/
def folderType : ObjectType where
  name := "Folder"
  methods := [.one "FileCount" 1 1]
  properties := ["FileCount", "FileCountAllTypes"]

end Partitura.ManuScript.Reference
