import Partitura.ManuScript.Language

/-!
# Types of objects, N to R
-/

namespace Partitura.ManuScript.Reference

/-- The type `Note`. -/
def noteType : ObjectType where
  name := "Note"
  methods := [.one "Delete" 0 0, .one "Transpose" 2 3]
  properties :=
    ["Accidental", "AccidentalStyle", "Bracketed", "Color", "ColorAlpha", "ColorBlue", "ColorGreen",
     "ColorRed", "DiatonicPitch", "Hidden", "IsAccidentalVisible", "LvTie", "Name", "NoteStyle",
     "NoteStyleName", "OriginalDeltaSr", "OriginalDuration", "OriginalVelocity", "ParentNoteRest",
     "Pitch", "Slide", "SlideStyleId", "StringNum", "TieIntoStyle", "TieStyle", "Tied", "TiedInto",
     "UseOriginalDeltaSrForPlayback", "UseOriginalDurationForPlayback",
     "UseOriginalVelocityForPlayback", "WrittenAccidental", "WrittenDiatonicPitch", "WrittenName",
     "WrittenPitch"]

/-- The type `NoteRest`. -/
def noteRestType : ObjectType where
  name := "NoteRest"
  methods :=
    [.one "AddNote" 1 4, .one "Delete" 0 0, .one "FlipStem" 0 0, .one "GetArticulation" 1 1,
     .one "RemoveNote" 1 1, .one "SetArticulation" 2 2, .one "Transpose" 2 3]
  properties :=
    ["ArpeggioBottomDy", "ArpeggioDx", "ArpeggioHidden", "ArpeggioTopDy", "ArpeggioType",
     "Articulations", "Beam", "CrossStaff", "DoubleTremolos", "Duration", "FallDx", "FallType",
     "FeatheredBeamType", "GraceNote", "HasStemlet", "Highest", "IsAcciaccatura", "IsAppoggiatura",
     "Lowest", "NoteCount", "ParentTupletIfAny", "PositionInTuplet", "RestPosition", "ScoopDx",
     "ScoopType", "StemFlipped", "StemletType", "Stemweight"]

/-- The type `NumChildren`. -/
def numChildrenType : ObjectType where
  name := "NumChildren"
  methods := [.one "AddBracket" 3 3, .one "ClearAll" 0 0, .one "DeleteNthBracket" 1 1]

/-- The type `PageNumberChange`. -/
def pageNumberChangeType : ObjectType where
  name := "PageNumberChange"
  methods :=
    [.one "SetFormatChangeOnly" 1 1, .one "SetHideOrShow" 1 1, .one "SetPageNumber" 1 1,
     .one "SetPageNumberFormat" 1 1]
  properties :=
    ["BarNumber", "HideOrShow", "PageNumber", "PageNumberAsString", "PageNumberBlankPageOffset",
     "PluginList"]

/-- The type `Plugin`. -/
def pluginType : ObjectType where
  name := "Plugin"
  methods := [.one "DataExists" 1 1, .one "DialogExists" 1 1, .one "MethodExists" 1 1]
  properties := ["File"]

/-- The type `PluginList`. -/
def pluginListType : ObjectType where
  name := "PluginList"
  methods := [.one "Contains" 1 1]

/-- The type `RehearsalMark`. -/
def rehearsalMarkType : ObjectType where
  name := "RehearsalMark"
  properties := ["Mark"]

end Partitura.ManuScript.Reference
