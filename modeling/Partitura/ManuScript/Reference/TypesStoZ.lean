import Partitura.ManuScript.Language

/-!
# Types of objects, S to Z
-/

namespace Partitura.ManuScript.Reference

/-- The type `Score`. -/
def scoreType : ObjectType where
  name := "Score"
  methods :=
    [.one "AddBars" 1 1, .one "ApplyStyle" 2 3, .one "ClefStyleId" 1 1, .one "CreateInstrument" 1 4,
     .one "CreateInstrumentAtBottom" 1 4, .one "CreateInstrumentAtTop" 1 4,
     .one "CreateInstrumentReturnStave" 1 4, .one "ExportHouseStyle" 1 1,
     .one "ExportPartsAsPDF" 1 4, .one "ExportScoreAsPDF" 1 1, .one "ExtractParts" 2 3,
     .one "FreezeMagneticLayoutPositions" 0 0, .one "GetLocationTime" 1 3,
     ⟨"GetVersions", [⟨0, 0⟩, ⟨0, 0⟩]⟩, .one "HideEmptyStaves" 4 4, .one "InsertBars" 2 3,
     .one "InternalPageNumToExternalPageNum" 1 1, .one "IsScoreSubset" 0 0, .one "LineStyleId" 1 1,
     .one "NoteStyleIndex" 1 1, .one "NthStaff" 1 1, .one "PlayLiveTempo" 1 1,
     .one "RemoveAllHighlights" 0 0, .one "RemoveVideo" 0 0, .one "RenameTextStyle" 2 2,
     .one "Save" 1 1, .one "SaveAs" 2 4, .one "SaveAsAudio" 1 5, .one "SaveAsCompressedAudio" 1 5,
     .one "SaveAsEarlierVersion" 2 3, .one "SaveAsSibelius2" 1 2,
     ⟨"SaveAsSibelius2020_1", [⟨1, 2⟩, ⟨1, 2⟩]⟩, .one "SaveAsSibelius3" 1 2,
     .one "SaveAsSibelius4" 1 2, .one "SaveAsSibelius5" 1 2, .one "SaveAsSibelius6" 1 2,
     .one "SaveAsSibelius7" 1 2, .one "SaveAsSibelius7_5" 1 2, .one "SaveAsSibelius8" 1 2,
     .one "SaveAsSibelius8_5" 1 2, .one "SaveAsSibelius8_6" 1 2, .one "SaveCopyAs" 1 2,
     .one "SetPlaybackPos" 2 2, .one "ShowEmptyStaves" 4 4, .one "StaveTypeId" 1 1,
     .one "SymbolExists" 1 1, .one "SymbolIndex" 1 1, .one "SystemCount" 1 1,
     .one "TextStyleId" 1 1, .one "ViewLiveTempo" 1 1]
  properties :=
    ["Arranger", "Artist", "AutoOptimizeEnabled", "BarPlaybackOrder", "BarPlaybackOrderString",
     "Barlines", "BracketsAndBraces", "Composer", "ComposerDates", "Copyist", "Copyright",
     "CurrentDynamicPart", "CurrentPlaybackPosBar", "CurrentPlaybackPosSr", "Dedication",
     "DocumentSetup", "DynamicParts", "EditingLocked", "EnableScorchPrinting", "EngravingRules",
     "FileName", "FocusOnStaves", "HitPoints", "InstrumentChanges", "InstrumentTypes",
     "IsDynamicPart", "LiveMode", "Lyricist", "MagneticLayoutEnabled", "MainMusicFontName",
     "MainTextFontName", "MusicTextFontName", "NumberOfPrintCopies", "OpusNumber",
     "OriginalProgramVersion", "OtherInformation", "PageCount", "PartName", "Publisher", "Redraw",
     "ScoreDuration", "ScoreEndTime", "ScoreHeight", "ScoreStartTime", "ScoreWidth", "Selection",
     "ShowMultiRests", "StaffCount", "StaffHeight", "Subtitle", "System", "SystemCount",
     "SystemObjectPositions", "SystemStaff", "Title", "TransposingScore", "UsingManualBarPlayOrder"]

/-- The type `Selection`. -/
def selectionType : ObjectType where
  name := "Selection"
  methods :=
    [.one "Clear" 0 0, .one "ClipboardContainsData" 0 1, .one "Copy" 0 1, .one "Delete" 0 1,
     .one "ExcludeStaff" 1 1, .one "HideSelectedEmptyStaves" 0 0, .one "IncludeStaff" 1 1,
     .one "Paste" 1 2, .one "PasteToPosition" 3 5, .one "RestoreSelection" 0 0,
     .one "SelectSystemPassage" 1 4, .one "StoreCurrentSelection" 0 0, .one "Transpose" 2 4]
  properties :=
    ["BottomStaff", "FirstBarNumber", "FirstBarNumberString", "FirstBarSr", "IsPassage",
     "IsSystemPassage", "LastBarNumber", "LastBarNumberString", "LastBarSr", "TopStaff"]

/-- The type `Sibelius`. -/
def sibeliusType : ObjectType where
  name := "Sibelius"
  methods :=
    [.one "AppendLineToFile" 2 3, .one "AppendLineToRTFFile" 2 2, .one "AppendTextFile" 2 3,
     .one "CalculateDegree" 3 3, .one "CalculateInterval" 3 3, .one "Close" 1 1,
     .one "CloseAllWindows" 1 1, .one "CloseAllWindowsForScore" 2 2, .one "CloseDialog" 3 3,
     .one "CloseWindow" 1 1, .one "CommandExists" 1 1, .one "CreateFolder" 1 1,
     .one "CreateProgressDialog" 3 3, .one "CreateRTFFile" 1 1, .one "CreateTextFile" 1 1,
     .one "DestroyProgressDialog" 0 0, .one "EarlierVersionIdFromName" 1 1,
     .one "EnableControlById" 4 4, .one "EnableNthControl" 2 2, .one "Execute" 1 1,
     .one "FileExists" 1 1, .one "FindCommandId" 1 1, .one "FindCommandName" 1 1,
     .one "FindStyleId" 1 1, .one "FolderExists" 1 1, .one "GetDocumentsFolder" 0 0,
     .one "GetElapsedCentiSeconds" 1 1, .one "GetElapsedMilliSeconds" 1 1,
     .one "GetElapsedSeconds" 1 1, .one "GetFile" 1 1, .one "GetFolder" 1 1,
     .one "GetListOfCommandNamesInCategory" 1 1, .one "GetNotesForChord" 1 1,
     .one "GetNotesForGuitarChord" 1 1, .one "GetScoresFolder" 0 0, .one "GetSyllabifier" 0 0,
     .one "GetUserApplicationDataFolder" 0 0, .one "GetUserSibeliusFolder" 0 0, .one "GoToEnd" 0 0,
     .one "GoToStart" 0 0, .one "IsDynamicPartOpen" 1 1, .one "IsFontFamilyInstalled" 1 1,
     .one "LaunchApplication" 1 3, .one "LiveTempoTap" 0 0, .one "MakeSafeFileName" 1 1,
     .one "MessageBox" 1 1, .one "MoveActiveViewToBar" 1 2, .one "MoveActiveViewToSelection" 0 1,
     .one "New" 0 1, .one "NthScore" 1 1, .one "Open" 1 2, .one "Play" 0 0,
     .one "PlayFromSelection" 0 0, .one "PlayFromStart" 0 0, .one "PrependScreenreaderText" 1 1,
     .one "Print" 1 3, .one "PrintAllDynamicParts" 0 1, .one "RandomNumber" 0 0,
     .one "RandomSeed" 1 1, .one "RandomSeedTime" 0 0, .one "ReadTextFile" 1 1,
     .one "RefreshDialog" 0 0, .one "ResetStopWatch" 1 1, .one "ScreenreaderText" 1 1,
     .one "SelectFileToSave" 5 6, .one "SelectFolder" 0 1, .one "SetCurrentScoreViewType" 1 1,
     .one "SetFocusToControl" 3 3, .one "ShowDialog" 2 2, .one "ShowDynamicPart" 1 2,
     .one "ShowTraceWindow" 0 0, .one "StartLiveTempoRecording" 0 0, .one "Stop" 0 0,
     .one "StopLiveTempoRecording" 0 0, .one "UpdateProgressDialog" 2 2, .one "YesNoMessageBox" 1 1]
  properties :=
    ["ActiveScore", "ApplicationLanguage", "ApplicationLanguageIsoString", "AvailableCommands",
     "CommandCategories", "CurrentDate", "CurrentDateLong", "CurrentDateShort", "CurrentTime",
     "Description", "EarlierVersionNames", "FontFamilies", "HouseStyles",
     "LocalizedApplicationLanguage", "ManuscriptPapers", "OSVersionString", "PathSeparator",
     "Playing", "Plugins", "ProgramVersion", "ScoreCount", "SuppressDefaultScreenreaderText",
     "Value", "ViewAnnotations", "ViewAttachmentLines", "ViewBarNumbers", "ViewComments",
     "ViewHandles", "ViewHiddenObjects", "ViewHighlights", "ViewLayoutMarks", "ViewNoteColors",
     "ViewNoteVelocities", "ViewPageMargins", "ViewPlaybackLine"]

/-- The type `SoundInfo`. -/
def soundInfoType : ObjectType where
  name := "SoundInfo"
  methods :=
    [.one "Clone" 0 0, .one "CreateAt" 0 3, .one "MoveTo" 0 3, .one "MoveToNext" 0 0,
     .one "MoveToPrevious" 0 0]
  properties :=
    ["ActualSoundId", "BarNum", "IsDrumStave", "NthRepeat", "NumTimesBarPlayed", "PatchName",
     "Position", "RequestedSoundId", "SoundChangeIndex"]

/-- The type `SparseArray`. -/
def sparseArrayType : ObjectType where
  name := "SparseArray"
  methods :=
    [.one "Concat" 2 2, .one "Join" 0 1, .one "Pop" 0 0, .one "Push" 3 3, .one "Reverse" 0 0,
     .one "Slice" 1 2]
  properties := ["Length", "ValidIndices"]

/-- The type `SpecialBarline`. -/
def specialBarlineType : ObjectType where
  name := "SpecialBarline"
  properties := ["BarlineInternalType", "BarlineType"]

/-- The type `Staff`. -/
def staffType : ObjectType where
  name := "Staff"
  methods :=
    [.one "AddClef" 2 3, .one "AddLine" 3 7, .one "AddNote" 6 7, .one "AddStaffAbove" 4 5,
     .one "AddStaffBelow" 4 5, .one "AddSymbol" 2 2, .one "CurrentKeySignature" 1 1,
     .one "NthBar" 1 1, .one "ResetSpaceAroundStaff" 2 4, .one "ScaleFactorChange" 3 3,
     .one "SetSound" 1 2, .one "SetSoundID" 1 1, .one "SoundIDAtPosition" 0 3]
  properties :=
    ["BankHigh", "BankLow", "BarCount", "BarNumber", "Channel", "Distance", "FullInstrumentName",
     "FullInstrumentNameWithFormatting", "FullStaffName", "FullStaffNameWithFormatting",
     "InitialClefStyle", "InitialClefStyleId", "InitialInstrumentType", "InitialKeySignature",
     "InitialStyleId", "InstrumentName", "IsSystemStaff", "IsVocalStaff", "MuteMode",
     "NumStavesInSameInstrument", "Pan", "ParentScore", "ShortInstrumentName",
     "ShortInstrumentNameWithFormatting", "ShortStaffName", "ShortStaffNameWithFormatting",
     "ShowInFocusOnStaves", "Small", "Solo", "SoundIdOverrideIfAny", "StaffNum"]

/-- The type `SyllabifiedString`. -/
def syllabifiedStringType : ObjectType where
  name := "SyllabifiedString"
  properties := ["Index"]

/-- The type `Syllabifier`. -/
def syllabifierType : ObjectType where
  name := "Syllabifier"
  methods :=
    [.one "AbbreviateUsingApostrophe" 1 1, .one "GetNthSyllable" 1 1,
     .one "NthSyllableEndsWord" 1 1, .one "Syllabify" 1 3]
  properties :=
    ["AbbreviateUsingApostrophe", "AvailableLanguageIds", "AvailableLanguages", "NumberOfSyllables"]

/-- The type `SystemObjectPositions`. -/
def systemObjectPositionsType : ObjectType where
  name := "SystemObjectPositions"
  methods :=
    [.one "Clear" 0 1, .one "GetNthStaffShowsSystemObjects" 1 1,
     .one "SetNthStaffShowsSystemObjects" 2 2]
  properties :=
    ["IsALine", "NumStavesShowingSystemObjects", "Objects", "ShowSystemObjectsBelowBottomStaff"]

/-- The type `SystemStaff`. -/
def systemStaffType : ObjectType where
  name := "SystemStaff"
  methods := [.one "CurrentKeySignature" 1 1, .one "CurrentTimeSignature" 1 1, .one "NthBar" 1 1]
  properties := ["BarCount"]

/-- The type `TimeSignature`. -/
def timeSignatureType : ObjectType where
  name := "TimeSignature"
  properties := ["AllowCautionary", "Denominator", "Numerator"]

/-- The type `Tuplet`. -/
def tupletType : ObjectType where
  name := "Tuplet"
  methods := [.one "AddNestedTuplet" 4 7, .one "AddNote" 3 6]
  properties :=
    ["Bracket", "FullDuration", "Left", "ParentTupletIfAny", "PlayedDuration", "PositionInTuplet",
     "Right", "Style", "Text"]

/-- The type `Version`. -/
def versionType : ObjectType where
  name := "Version"
  methods :=
    [.one "AddComment" 1 1, .one "Close" 0 0, .one "DeleteNthComment" 1 1, .one "GetNthComment" 1 1,
     .one "OpenAndReturnScore" 0 0]
  properties := ["EndDate", "Name"]

/-- The type `VersionComment`. -/
def versionCommentType : ObjectType where
  name := "VersionComment"
  properties :=
    ["Accent", "AccentArtic", "Acciaccatura", "AccidentalSymbols", "Accidentals", "Accordion",
     "AccordionSymbols", "Action", "AllStyles", "AllaBreveTimeString", "Almglocken", "Alto",
     "Altus", "Annotate", "Anvil", "Applause", "Appoggiatura", "Arpeggio", "Arrange", "Arrow",
     "ArrowDownNoteStyle", "ArrowUpNoteStyle", "ArticulationSymbols", "Articulations",
     "BackSlashedNoteStyle", "Bagpipes", "Bandoneon", "Bansuri", "BarNumberFormatNormal",
     "BarNumberFormatNumberLetterLower", "BarNumberFormatNumberLetterUpper", "Baritone", "Bass",
     "Bassoon", "Bassus", "Beam", "BeatNoteStyle", "BeatWithoutStemNoteStyle",
     "BeaterPercussionSymbols", "Berimbau", "Birdsong", "BlackAndWhiteDiamondNoteStyle", "Box",
     "Brace", "Bracket", "BracketBrace", "BracketFull", "BracketSub", "Bracketed", "BracketedAcc",
     "BracketedTrillSymbol", "Brass", "BreakSymbols", "Breaks", "Breve", "BreveBarRest",
     "CaesuraSymbol", "Cantus", "Cascade", "Castanets", "CautionaryAcc", "Celesta", "Chimes",
     "Choir", "Chord", "ChromaticPercussionSymbols", "Cimbalom", "Clavichord", "Clef",
     "ClefSymbols", "Clefs", "CodaSymbol", "Color", "CommaSymbol", "CommandID", "Commands",
     "Comment", "Common", "CommonTimeString", "Compare", "Composer", "ConductorSymbols", "Contents",
     "ContinueBeam", "Contrabass", "Contrabassoon", "Contralto", "Convention", "Copy", "Copyright",
     "Countertenor", "Crescendo", "CrossNoteStyle", "CrossOrDiamondNoteStyle", "Crotales",
     "CueGraceNoteSize", "CueNoteStyle", "CueSize", "Custom1Artic", "Custom2Artic", "Custom3Artic",
     "CustomChordNames", "Cut", "Cymbals", "Dashed", "Dedication", "Default",
     "DefaultPartAppearance", "Delete", "DiamondNoteStyle", "Dictionary", "Didgeridoo",
     "Diminuendo", "DocumentSetupUnitsInches", "DocumentSetupUnitsPoints", "DocumentSetupUnitsmm",
     "Doit", "Dotted", "DottedBreve", "DottedWhole", "DoubleFlat", "DoubleSharp",
     "DoubleTremolosBetweenStems", "DoubleTremolosOuterTremoloTouchingStems",
     "DoubleTremolosTouchingStems", "DownBowArtic", "Downbow", "DrumPercussionSymbols", "Duduk",
     "Dulcimer", "Duplet", "EndOfPage", "EndOfSystem", "EndOfSystemOrPage", "EndOfWord",
     "EndsMultirest", "Engraving", "EveryNthBar", "EverySystem", "Exit", "Expression",
     "ExtraSmallSize", "Fall", "FeatheredBeamAccel", "FeatheredBeamNone", "FeatheredBeamRit",
     "Find", "Fingering", "Flageolet", "Flat", "Flip", "Flugelhorn", "Flute", "Footer", "Footnote",
     "FourBarRepeat", "Fretboard", "GeneralSymbols", "Glissando", "Glockenspiel", "GraceNoteSize",
     "Graphic", "Guitar", "GuitarSymbols", "Gyil", "HalfMuted", "HandbellSymbols", "Handbells",
     "Handles", "HarmonicArtic", "Harmonica", "Harmonium", "Harp", "Harpsichord", "Hauptstimme",
     "Header", "HeadlessNoteStyle", "Heckelphone", "HeelOneSymbol", "HeelTwoSymbol", "Helicopter",
     "HiddenAcc", "Highlight", "Highlights", "House", "Ideas", "Import",
     "IncludeScoreSubsetsInDynamicPartCollection", "Index", "Inspector", "Instrument",
     "InstrumentChange", "InstrumentNamesFull", "InstrumentNamesNone", "InstrumentNamesShort",
     "InstrumentsAndEnsembles", "Interval2xAugmented", "Interval2xDiminished",
     "Interval3xAugmented", "Interval3xDiminished", "Interval4xAugmented", "Interval4xDiminished",
     "Interval5xAugmented", "Interval5xDiminished", "IntervalAugmented", "IntervalDiatonic",
     "IntervalDiminished", "IntervalMajor", "IntervalMinor", "IntervalPerfect", "Introduction",
     "InvertedMordentSymbol", "InvertedTriangleNoteStyle", "InvertedTripleMordentSymbol",
     "InvertedTurnSymbol", "Kalimba", "Keyboard", "KeyboardSymbols", "Keyboards", "Keypad", "Kora",
     "LiftPedalSymbol", "Line", "Lines", "Long", "Loop", "Lyricist", "Lyrics", "Maracas", "Marcato",
     "MarcatoArtic", "Mean", "Measurements", "MediumSize", "Melodeon", "MetallicPercussionSymbols",
     "Metronome", "Mey", "MidMultirest", "MiddleOfPage", "MiddleOfSystem", "MiddleOfWord",
     "MiscellaneousSymbols", "Mixer", "Molto", "MordentSymbol", "Multirests",
     "MusicRestartsAfterXPages", "MusicRestartsOnNextLeftPage", "MusicRestartsOnNextRightPage",
     "Muted", "Nai", "Nashville", "Natural", "Navigator", "Nebenstimme", "New", "NoBarNumbers",
     "NoBeam", "NoMultirest", "NoPageBreak", "Nonuplet", "NormalAcc", "NormalNoteStyle",
     "NormalSize", "NotEndOfSystem", "NotMuted", "NoteSymbols", "NoteheadSymbols", "Noteheads",
     "Null", "Oboe", "Ocarina", "OctaveSymbols", "Octopus", "OneBarRepeat", "Open", "Ophicleide",
     "OrientationLandscape", "OrientationPortrait", "OrnamentSymbols", "OtherPercussionSymbols",
     "Page", "PageMarginsDifferent", "PageMarginsMirrored", "PageMarginsSame",
     "PageNumberFormatLetterLower", "PageNumberFormatNormal", "PageNumberFormatRomanLower",
     "PageNumberFormatRomanUpper", "PageNumberHideAll", "PageNumberHideFirst", "PageNumberShowAll",
     "PageSize10x13", "PageSize9_5x12_5", "PageSizeA3", "PageSizeA4", "PageSizeA5", "PageSizeB4",
     "PageSizeB5", "PageSizeConcert", "PageSizeCustom", "PageSizeExecutive", "PageSizeFolio",
     "PageSizeHymn", "PageSizeLegal", "PageSizeLetter", "PageSizeOctavo", "PageSizeQuarto",
     "PageSizeStatement", "PageSizeTabloid", "PageSizeUSBand", "Panorama", "Panpipes", "Paste",
     "Patsch", "PauseArtic", "Pedal", "PedalPSymbol", "PedalSymbol", "PedalUpSymbol", "Percussion",
     "PercussionTechniqueSymbols", "Performance", "Piano", "Piccolo", "Plop", "PlusArtic",
     "Portamento", "Preferences", "Print", "Qanoon", "Quadruplet", "QuarterFlat", "QuarterSharp",
     "Quintuplet", "Quintus", "Rationale", "Redo", "Rehearsal", "Repeat", "RepeatBarSymbol",
     "RepeatBeatSymbol", "RepeatSymbols", "RepeatTwoBarsSymbol", "Repeats", "Replay", "Resources",
     "Rest", "RestSymbols", "ReversedTurnSymbol", "Rewind", "Rules", "Sampler", "Santoor",
     "Sarangi", "Save", "ScaleType7thArpeggio", "ScaleTypeAlteredDominant",
     "ScaleTypeAugmentedArpeggio", "ScaleTypeDiminished7thArpeggio", "ScaleTypeDiminishedWholeHalf",
     "ScaleTypeDominantBebop", "ScaleTypeDorian", "ScaleTypeHarmonicMinor", "ScaleTypeLocrian",
     "ScaleTypeLocrianSharp2", "ScaleTypeLydian", "ScaleTypeLydianFlat7", "ScaleTypeLydianSharp5",
     "ScaleTypeMajor", "ScaleTypeMajor7thArpeggio", "ScaleTypeMajorBebop",
     "ScaleTypeMajorPentatonic", "ScaleTypeMelodicMinor", "ScaleTypeMin7Flat5Arpeggio",
     "ScaleTypeMinor", "ScaleTypeMinorPentatonic", "ScaleTypeMixolydian", "ScaleTypeOther",
     "ScaleTypePhrygian", "ScaleTypePhrygianDominant", "ScaleTypeWholeTone",
     "ScalrTypeDiminishedHalfWhole", "Scoop", "Seashore", "Secundus", "SegnoSymbol", "Septuplet",
     "Serpent", "Sextuplet", "Shakuhachi", "ShapedNote1NoteStyle", "ShapedNote2NoteStyle",
     "ShapedNote3NoteStyle", "ShapedNote4StemDownNoteStyle", "ShapedNote4StemUpNoteStyle",
     "ShapedNote5NoteStyle", "ShapedNote6NoteStyle", "ShapedNote7NoteStyle", "Sharp",
     "SilentNoteStyle", "SingleBeam", "SingleTremolos", "SlashedNoteStyle", "Slide", "SmallSize",
     "Solo", "Soprano", "Space", "SpacingRule", "Special", "SpecialBarlineBetweenStaves",
     "SpecialBarlineDashed", "SpecialBarlineDotted", "SpecialBarlineDouble",
     "SpecialBarlineEndRepeat", "SpecialBarlineFinal", "SpecialBarlineInvisible",
     "SpecialBarlineNormal", "SpecialBarlineShort", "SpecialBarlineStartRepeat",
     "SpecialBarlineThick", "SpecialBarlineTick", "SpecialBarlineTriple", "SpecialPageBreak",
     "SquarePauseArtic", "Staccatissimo", "StaccatissimoArtic", "Staccato", "StaccatoArtic",
     "StaffHeight", "Stamp", "StartBeam", "StartsMultirest", "StemlessNoteStyle", "Stemlet", "Stop",
     "String", "Strings", "Subtitle", "SupportHalfSemitonePitchValues", "Symbol", "Symbols",
     "Synthesizer", "Tab", "Tabla", "Tablature", "Tambourine", "Tape", "Technique",
     "TechniqueSymbols", "Telephone", "Tempo", "Tenor", "Tenuto", "TenutoArtic", "Text", "Theremin",
     "ThickCaesuraSymbol", "ThreeQuarterFlat", "ThreeQuarterSharp", "TickSymbol", "Tie", "Time",
     "TimeStamp", "Timecode", "Timeline", "Title", "ToeOneSymbol", "ToeTwoSymbol", "Transport",
     "Transpose", "TreatSingleCharacterAsString", "Treble", "TriPauseArtic", "Triangle", "Trill",
     "TrillSymbol", "TripleMordentSymbol", "Triplet", "Trombone", "Tuba", "Tuplet",
     "TupletBracketAuto", "TupletBracketOff", "TupletBracketOn", "TupletLeft", "TupletLeftRight",
     "TupletLeftRightNote", "TupletNoNumber", "Tuplets", "TurnSymbol", "TwoBarRepeat", "Udu",
     "Undo", "UpBowArtic", "Upbow", "UserName", "Vertical", "Vibraphone", "Vibrato", "Video",
     "Viola", "Violoncello", "Voice", "Wedge", "WedgeArtic", "Whip", "Whistle", "WholeBarRest",
     "Wide", "Woodwind", "Worksheet", "Xylophone", "Xylorimba", "Zither", "Zoom"]

/-- The type `VersionHistory`. -/
def versionHistoryType : ObjectType where
  name := "VersionHistory"
  methods := [.one "AddVersion" 1 2, .one "DeleteNthVersion" 1 1, .one "GetNthVersion" 1 1]

end Partitura.ManuScript.Reference
