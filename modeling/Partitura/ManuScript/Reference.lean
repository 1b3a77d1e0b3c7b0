import Partitura.ManuScript.Reference.Constants
import Partitura.ManuScript.Reference.TypesAtoF
import Partitura.ManuScript.Reference.TypesGtoM
import Partitura.ManuScript.Reference.TypesNtoR
import Partitura.ManuScript.Reference.TypesStoZ

/-!
# The language reference of the host program
-/

namespace Partitura.ManuScript

open Reference

/-- What the host program offers. -/
def Language.reference : Language where
  objects :=
    [{ name := "Accessibility" }, { name := "AnnotationItem" }, barType, barObjectType, barRestType,
     barlineType, barlinesType, bracketType, clefType, commentType, { name := "Component" },
     { name := "ComponentList" }, { name := "Contents" }, dataType, dateTimeType,
     { name := "Dialogs" }, dictionaryType, documentSetupType, dynamicPartType,
     { name := "DynamicPartCollection" }, engravingRulesType, fileType, folderType, guitarFrameType,
     guitarScaleDiagramType, hitPointType, hitPointListType, { name := "InitialKeySignature" },
     instrumentChangeType, instrumentTypeType, { name := "InstrumentTypeList" }, isSystemStaffType,
     keySignatureType, { name := "Label" }, lineType, lyricItemType, { name := "Major" },
     { name := "MarkAsText" }, { name := "Name" }, noteType, noteRestType, numChildrenType,
     { name := "NumComments" }, pageNumberChangeType, { name := "PageNumberFormat" },
     { name := "ParentScore" }, pluginType, pluginListType, rehearsalMarkType,
     { name := "RestType" }, scoreType, { name := "ScoreDescription" }, selectionType,
     { name := "Sharps" }, { name := "ShowFingerings" }, sibeliusType, { name := "SingleTremolos" },
     { name := "Size" }, soundInfoType, { name := "SoundSetName" }, sparseArrayType,
     specialBarlineType, { name := "SplitMultirest" }, staffType, { name := "StartDate" },
     { name := "StaveNum" }, { name := "StyleAsText" }, { name := "StyleId" },
     syllabifiedStringType, syllabifierType, systemObjectPositionsType, systemStaffType,
     { name := "Text" }, { name := "TextLabel" }, { name := "TextWithFormattingAsString" },
     { name := "TieMiddleThickness" }, { name := "TieOutlineWidth" }, { name := "Time" },
     timeSignatureType, { name := "TopStave" }, { name := "TopStaveNum" },
     { name := "TransposingClefStyle" }, { name := "TransposingClefStyleId" },
     { name := "TreeNode" }, tupletType, { name := "Type" }, { name := "Unit" },
     { name := "UserName" }, { name := "Utils" }, versionType, versionCommentType,
     versionHistoryType, { name := "ViewReplayMarker" }, { name := "VisibleComponents" },
     { name := "Volume" }, { name := "YearOfComposition" }]
  functions := Reference.functions
  constants := Reference.constants

end Partitura.ManuScript
