import Partitura.Bundle.Lines

/-!
# The export plugin

The plugin that writes the open score as an interchange document, in the language of the notation
program.
-/

namespace Partitura.Bundle.Export

/-- The text of the plugin. -/
def text : String := indented ("\x7b
  Initialize \"() \x7b
  AddToPluginsMenu(_PluginMenuName, 'Run');
  \x7d\"
  _PluginMenuName \"Mahlif: Export\"
  Run \"() \x7b
  if (Sibelius.ProgramVersion < 7000) \x7b
  Sibelius.MessageBox('This plugin requires Sibelius 7 or later.');
  return False;
  \x7d
  score = Sibelius.ActiveScore;
  if (null = score) \x7b
  Sibelius.MessageBox('No score is open.');
  return False;
  \x7d
  file = Sibelius.SelectFileToSave('Export Mahlif XML', '', '', 'xml', '', 'Mahlif XML');
  if ('' = file) \x7b
  return False;
  \x7d
  Sibelius.CreateProgressDialog('Exporting to Mahlif XML...', 0, 100);
  xml = DoExportScore(score);
  Sibelius.UpdateProgressDialog(95, 'Writing file...');
  Sibelius.CreateTextFile(file);
  Sibelius.AppendTextFile(file, xml, True);
  Sibelius.DestroyProgressDialog();
  Sibelius.MessageBox('Export complete: ' & file);
  return True;
  \x7d\"
  DoExportScore \"(score) \x7b
  q = Chr(34);
  nl = Chr(10);
  xml = '<?xml version=' & q & '1.0' & q & ' encoding=' & q & 'UTF-16' & q & '?>' & nl;
  xml = xml & '<mahlif version=' & q & '1.0' & q & ' generator=' & q & 'SibeliusPlugin/1.0' & q " ++
    "& '>' & nl;
  // Meta
  xml = xml & '  <meta>' & nl;
  xml = xml & '    <work-title>' & XmlEsc(score.Title) & '</work-title>' & nl;
  xml = xml & '    <composer>' & XmlEsc(score.Composer) & '</composer>' & nl;
  xml = xml & '    <lyricist>' & XmlEsc(score.Lyricist) & '</lyricist>' & nl;
  xml = xml & '    <arranger>' & XmlEsc(score.Arranger) & '</arranger>' & nl;
  xml = xml & '    <copyright>' & XmlEsc(score.Copyright) & '</copyright>' & nl;
  xml = xml & '    <source-file>' & XmlEsc(score.FileName) & '</source-file>' & nl;
  xml = xml & '    <source-format>Sibelius ' & Sibelius.ProgramVersion & '</source-format>' & nl;
  xml = xml & '  </meta>' & nl;
  // Layout
  docSetup = score.DocumentSetup;
  xml = xml & '  <layout>' & nl;
  xml = xml & '    <page width=' & q & docSetup.PageWidth & q & ' height=' & q & " ++
    "docSetup.PageHeight & q & ' unit=' & q & 'mm' & q & '/>' & nl;
  xml = xml & '    <staff-height>' & docSetup.StaffSize & '</staff-height>' & nl;
  xml = xml & '  </layout>' & nl;
  // Staves
  xml = xml & '  <staves count=' & q & score.StaffCount & q & '>' & nl;
  staffCount = score.StaffCount;
  for s = 1 to staffCount + 1 \x7b
  staff = score.NthStaff(s);
  pct = (s * 80) / staffCount;
  Sibelius.UpdateProgressDialog(pct, 'Exporting staff ' & s & ' of ' & staffCount & '...');
  xml = xml & DoExportStaff(staff, score);
  \x7d
  xml = xml & '  </staves>' & nl;
  // System staff
  Sibelius.UpdateProgressDialog(85, 'Exporting system staff...');
  xml = xml & DoExportSystemStaff(score.SystemStaff);
  xml = xml & '</mahlif>' & nl;
  return xml;
  \x7d\"
  DoExportStaff \"(staff, score) \x7b
  q = Chr(34);
  nl = Chr(10);
  xml = '    <staff n=' & q & staff.StaffNum & q;
  xml = xml & ' instrument=' & q & XmlEsc(staff.InstrumentName) & q;
  xml = xml & ' instrument-short=' & q & XmlEsc(staff.ShortInstrumentName) & q;
  xml = xml & ' full-name=' & q & XmlEsc(staff.FullInstrumentName) & q;
  xml = xml & ' short-name=' & q & XmlEsc(staff.ShortInstrumentName) & q;
  xml = xml & ' clef=' & q & GetClefName(staff.InitialClefStyleId) & q;
  // InitialKeySignature returns a KeySignature object, get Sharps from it
  initKey = staff.InitialKeySignature;
  keySharps = 0;
  if (initKey != null) \x7b
  keySharps = initKey.Sharps;
  \x7d
  xml = xml & ' key-sig=' & q & keySharps & q;
  xml = xml & '>' & nl;
  barCount = score.SystemStaff.BarCount;
  for b = 1 to barCount + 1 \x7b
  bar = staff.NthBar(b);
  ssBar = score.SystemStaff.NthBar(b);
  xml = xml & DoExportBar(bar, b, ssBar);
  \x7d
  // Lyrics
  xml = xml & DoExportLyrics(staff, barCount);
  xml = xml & '    </staff>' & nl;
  return xml;
  \x7d\"
  DoExportBar \"(bar, barNum, ssBar) \x7b
  q = Chr(34);
  nl = Chr(10);
  xml = '      <bar n=' & q & barNum & q & ' length=' & q & bar.Length & q;
  // Check for breaks
  breakType = GetBreakType(ssBar);
  if (breakType != '') \x7b
  xml = xml & ' break=' & q & breakType & q;
  \x7d
  xml = xml & '>' & nl;
  for each obj in bar \x7b
  xml = xml & DoExportObject(obj, barNum);
  \x7d
  xml = xml & '      </bar>' & nl;
  return xml;
  \x7d\"
  DoExportObject \"(obj, barNum) \x7b
  type = obj.Type;
  if (type = 'NoteRest') \x7b
  return DoExportNoteRest(obj);
  \x7d
  if (type = 'Clef') \x7b
  return DoExportClef(obj);
  \x7d
  if (type = 'KeySignature') \x7b
  return DoExportKeySig(obj);
  \x7d
  if (type = 'TimeSignature') \x7b
  return DoExportTimeSig(obj);
  \x7d
  if (type = 'Text') \x7b
  return DoExportText(obj);
  \x7d
  if (type = 'Slur') \x7b
  return DoExportSlur(obj, barNum);
  \x7d
  if (type = 'CrescendoLine') \x7b
  return DoExportHairpin(obj, barNum, 'cresc');
  \x7d
  if (type = 'DiminuendoLine') \x7b
  return DoExportHairpin(obj, barNum, 'dim');
  \x7d
  if (type = 'Tuplet') \x7b
  return DoExportTuplet(obj, barNum);
  \x7d
  if (type = 'SpecialBarline') \x7b
  return DoExportBarline(obj);
  \x7d
  if (type = 'OctavaLine') \x7b
  return DoExportOctava(obj, barNum);
  \x7d
  if (type = 'PedalLine') \x7b
  return DoExportPedal(obj, barNum);
  \x7d
  if (type = 'Trill') \x7b
  return DoExportTrill(obj, barNum);
  \x7d
  if (type = 'GraceNote') \x7b
  return DoExportGraceNote(obj);
  \x7d
  if (type = 'GuitarFrame') \x7b
  return '';
  \x7d
  if (type = 'LyricItem') \x7b
  return '';
  \x7d
  if (type = 'BarRest') \x7b
  return '';
  \x7d
  if (type = 'RehearsalMark') \x7b
  return '';
  \x7d
  if (type = 'SystemTextItem') \x7b
  return '';
  \x7d
  if (type = 'InstrumentChange') \x7b
  return '';
  \x7d
  if (type = 'Line') \x7b
  return '';
  \x7d
  if (type = 'ArpeggioLine') \x7b
  return '';
  \x7d
  if (type = 'GlissandoLine') \x7b
  return '';
  \x7d
  if (type = 'BeamLine') \x7b
  return '';
  \x7d
  if (type = 'Box') \x7b
  return '';
  \x7d
  if (type = 'SymbolItem') \x7b
  return '';
  \x7d
  if (type = 'Graphic') \x7b
  return '';
  \x7d
  if (type = 'Comment') \x7b
  return '';
  \x7d
  if (type = 'RepeatTimeLine') \x7b
  return '';
  \x7d
  if (type = 'Highlight') \x7b
  return '';
  \x7d
  return '';
  \x7d\"
  DoExportNoteRest \"(nr) \x7b
  q = Chr(34);
  nl = Chr(10);
  noteCount = 0;
  for each n in nr \x7b
  noteCount = noteCount + 1;
  \x7d
  // Rest
  if (noteCount = 0) \x7b
  xml = '        <rest';
  xml = xml & ' pos=' & q & nr.Position & q;
  xml = xml & ' dur=' & q & nr.Duration & q;
  xml = xml & ' voice=' & q & nr.VoiceNumber & q;
  if (nr.Hidden) \x7b
  xml = xml & ' hidden=' & q & 'true' & q;
  \x7d
  xml = xml & ' dx=' & q & nr.Dx & q;
  xml = xml & ' dy=' & q & nr.Dy & q;
  xml = xml & '/>' & nl;
  return xml;
  \x7d
  // Get articulations
  arts = GetArticulations(nr);
  // Single note
  if (noteCount = 1) \x7b
  for each n in nr \x7b
  xml = '        <note';
  xml = xml & ' pos=' & q & nr.Position & q;
  xml = xml & ' dur=' & q & nr.Duration & q;
  xml = xml & ' voice=' & q & nr.VoiceNumber & q;
  xml = xml & ' pitch=' & q & n.Pitch & q;
  xml = xml & ' written-pitch=' & q & n.WrittenPitch & q;
  xml = xml & ' diatonic=' & q & n.DiatonicPitch & q;
  xml = xml & ' accidental=' & q & GetAccName(n.Accidental) & q;
  if (n.Tied) \x7b
  xml = xml & ' tied=' & q & 'true' & q;
  \x7d
  if (nr.Hidden) \x7b
  xml = xml & ' hidden=' & q & 'true' & q;
  \x7d
  xml = xml & ' dx=' & q & nr.Dx & q;
  xml = xml & ' dy=' & q & nr.Dy & q;
  if (arts != '') \x7b
  xml = xml & ' articulations=' & q & arts & q;
  \x7d
  xml = xml & '/>' & nl;
  \x7d
  return xml;
  \x7d
  // Chord
  xml = '        <chord';
  xml = xml & ' pos=' & q & nr.Position & q;
  xml = xml & ' dur=' & q & nr.Duration & q;
  xml = xml & ' voice=' & q & nr.VoiceNumber & q;
  xml = xml & ' stem=' & q & GetStemDir(nr) & q;
  xml = xml & ' beam=' & q & GetBeamState(nr) & q;
  xml = xml & ' dx=' & q & nr.Dx & q;
  xml = xml & ' dy=' & q & nr.Dy & q;
  if (arts != '') \x7b
  xml = xml & ' articulations=' & q & arts & q;
  \x7d
  xml = xml & '>' & nl;
  for each n in nr \x7b
  xml = xml & '          <n';
  xml = xml & ' p=' & q & n.Pitch & q;
  xml = xml & ' d=' & q & n.DiatonicPitch & q;
  xml = xml & ' a=' & q & GetAccName(n.Accidental) & q;
  if (n.Tied) \x7b
  xml = xml & ' t=' & q & '1' & q;
  \x7d
  xml = xml & '/>' & nl;
  \x7d
  xml = xml & '        </chord>' & nl;
  return xml;
  \x7d\"
  DoExportClef \"(obj) \x7b
  q = Chr(34);
  nl = Chr(10);
  xml = '        <clef';
  xml = xml & ' pos=' & q & obj.Position & q;
  xml = xml & ' type=' & q & GetClefName(obj.StyleId) & q;
  xml = xml & ' dx=' & q & obj.Dx & q;
  xml = xml & '/>' & nl;
  return xml;
  \x7d\"
  DoExportKeySig \"(obj) \x7b
  q = Chr(34);
  nl = Chr(10);
  xml = '        <key';
  xml = xml & ' pos=' & q & obj.Position & q;
  xml = xml & ' fifths=' & q & obj.Sharps & q;
  if (obj.Major) \x7b
  xml = xml & ' mode=' & q & 'major' & q;
  \x7d else \x7b
  xml = xml & ' mode=' & q & 'minor' & q;
  \x7d
  xml = xml & '/>' & nl;
  return xml;
  \x7d\"
  DoExportTimeSig \"(obj) \x7b
  q = Chr(34);
  nl = Chr(10);
  xml = '        <time';
  xml = xml & ' pos=' & q & obj.Position & q;
  xml = xml & ' num=' & q & obj.Numerator & q;
  xml = xml & ' den=' & q & obj.Denominator & q;
  xml = xml & '/>' & nl;
  return xml;
  \x7d\"
  DoExportText \"(obj) \x7b
  q = Chr(34);
  nl = Chr(10);
  style = obj.StyleId;
  // Check if dynamic
  if (IsDynamic(style)) \x7b
  xml = '        <dynamic';
  xml = xml & ' pos=' & q & obj.Position & q;
  xml = xml & ' voice=' & q & obj.VoiceNumber & q;
  xml = xml & ' text=' & q & XmlEsc(obj.Text) & q;
  xml = xml & ' dx=' & q & obj.Dx & q;
  xml = xml & ' dy=' & q & obj.Dy & q;
  xml = xml & '/>' & nl;
  return xml;
  \x7d
  // Regular text
  xml = '        <text';
  xml = xml & ' pos=' & q & obj.Position & q;
  xml = xml & ' voice=' & q & obj.VoiceNumber & q;
  xml = xml & ' style=' & q & XmlEsc(style) & q;
  xml = xml & ' dx=' & q & obj.Dx & q;
  xml = xml & ' dy=' & q & obj.Dy & q;
  xml = xml & '>' & XmlEsc(obj.Text) & '</text>' & nl;
  return xml;
  \x7d\"
  DoExportSlur \"(obj, barNum) \x7b
  q = Chr(34);
  nl = Chr(10);
  xml = '        <slur';
  xml = xml & ' start-bar=' & q & barNum & q;
  xml = xml & ' start-pos=' & q & obj.Position & q;
  xml = xml & ' end-bar=' & q & obj.EndBarNumber & q;
  xml = xml & ' end-pos=' & q & obj.EndPosition & q;
  xml = xml & ' voice=' & q & obj.VoiceNumber & q;
  xml = xml & '/>' & nl;
  return xml;
  \x7d\"
  DoExportHairpin \"(obj, barNum, hpType) \x7b
  q = Chr(34);
  nl = Chr(10);
  xml = '        <hairpin';
  xml = xml & ' type=' & q & hpType & q;
  xml = xml & ' start-bar=' & q & barNum & q;
  xml = xml & ' start-pos=' & q & obj.Position & q;
  xml = xml & ' end-bar=' & q & obj.EndBarNumber & q;
  xml = xml & ' end-pos=' & q & obj.EndPosition & q;
  xml = xml & ' voice=' & q & obj.VoiceNumber & q;
  xml = xml & '/>' & nl;
  return xml;
  \x7d\"
  DoExportTuplet \"(obj, barNum) \x7b
  q = Chr(34);
  nl = Chr(10);
  xml = '        <tuplet';
  xml = xml & ' start-bar=' & q & barNum & q;
  xml = xml & ' start-pos=' & q & obj.Position & q;
  xml = xml & ' num=' & q & obj.Left & q;
  xml = xml & ' den=' & q & obj.Right & q;
  xml = xml & '/>' & nl;
  return xml;
  \x7d\"
  DoExportBarline \"(obj) \x7b
  q = Chr(34);
  nl = Chr(10);
  xml = '        <barline';
  xml = xml & ' pos=' & q & obj.Position & q;
  xml = xml & ' type=' & q & utils.LowerCase(obj.BarlineType) & q;
  xml = xml & '/>' & nl;
  return xml;
  \x7d\"
  DoExportOctava \"(obj, barNum) \x7b
  q = Chr(34);
  nl = Chr(10);
  // Determine octave type from StyleId
  styleId = obj.StyleId;
  octType = '8va';
  if (Substring(styleId, 0, 25) = 'line.staff.octava.minus8') \x7b
  octType = '8vb';
  \x7d
  if (Substring(styleId, 0, 26) = 'line.staff.octava.minus15') \x7b
  octType = '15vb';
  \x7d
  if (Substring(styleId, 0, 25) = 'line.staff.octava.plus15') \x7b
  octType = '15va';
  \x7d
  xml = '        <octava';
  xml = xml & ' type=' & q & octType & q;
  xml = xml & ' start-bar=' & q & barNum & q;
  xml = xml & ' start-pos=' & q & obj.Position & q;
  xml = xml & ' end-bar=' & q & obj.EndBarNumber & q;
  xml = xml & ' end-pos=' & q & obj.EndPosition & q;
  xml = xml & '/>' & nl;
  return xml;
  \x7d\"
  DoExportPedal \"(obj, barNum) \x7b
  q = Chr(34);
  nl = Chr(10);
  xml = '        <pedal';
  xml = xml & ' type=' & q & 'sustain' & q;
  xml = xml & ' start-bar=' & q & barNum & q;
  xml = xml & ' start-pos=' & q & obj.Position & q;
  xml = xml & ' end-bar=' & q & obj.EndBarNumber & q;
  xml = xml & ' end-pos=' & q & obj.EndPosition & q;
  xml = xml & '/>' & nl;
  return xml;
  \x7d\"
  DoExportTrill \"(obj, barNum) \x7b
  q = Chr(34);
  nl = Chr(10);
  xml = '        <trill';
  xml = xml & ' start-bar=' & q & barNum & q;
  xml = xml & ' start-pos=' & q & obj.Position & q;
  xml = xml & ' end-bar=' & q & obj.EndBarNumber & q;
  xml = xml & ' end-pos=' & q & obj.EndPosition & q;
  xml = xml & '/>' & nl;
  return xml;
  \x7d\"
  DoExportGraceNote \"(obj) \x7b
  q = Chr(34);
  nl = Chr(10);
  gType = 'grace';
  if (obj.IsAcciaccatura) \x7b
  gType = 'acciaccatura';
  \x7d
  if (obj.IsAppoggiatura) \x7b
  gType = 'appoggiatura';
  \x7d
  xml = '        <grace';
  xml = xml & ' pos=' & q & obj.Position & q;
  xml = xml & ' type=' & q & gType & q;
  xml = xml & ' pitch=' & q & obj.Pitch & q;
  xml = xml & ' dur=' & q & obj.Duration & q;
  xml = xml & '/>' & nl;
  return xml;
  \x7d\"
  DoExportLyrics \"(staff, barCount) \x7b
  q = Chr(34);
  nl = Chr(10);
  xml = '';
  // Check verses 1-5
  for verse = 1 to 6 \x7b
  hasLyrics = False;
  verseFont = '';
  verseFontSize = 0;
  lyricsXml = '';
  syllablesXml = '';
  for b = 1 to barCount + 1 \x7b
  bar = staff.NthBar(b);
  for each obj in bar \x7b
  if (obj.Type = 'LyricItem') \x7b
  objVerse = GetLyricVerse(obj.StyleId);
  if (objVerse = verse) \x7b
  // Get font info from first syllable
  if (not hasLyrics) \x7b
  verseFont = obj.StyleAsText;
  \x7d
  hasLyrics = True;
  syllablesXml = syllablesXml & '        <syl';
  syllablesXml = syllablesXml & ' pos=' & q & obj.Position & q;
  syllablesXml = syllablesXml & ' bar=' & q & b & q;
  syllableType = obj.SyllableType;
  if ((syllableType = 1) or (syllableType = 3)) \x7b
  syllablesXml = syllablesXml & ' hyphen=' & q & 'true' & q;
  \x7d
  if ((syllableType = 2) or (syllableType = 3)) \x7b
  syllablesXml = syllablesXml & ' melisma=' & q & 'true' & q;
  \x7d
  syllablesXml = syllablesXml & '>' & XmlEsc(obj.Text) & '</syl>' & nl;
  \x7d
  \x7d
  \x7d
  \x7d
  if (hasLyrics) \x7b
  lyricsXml = '      <lyrics voice=' & q & '1' & q & ' verse=' & q & verse & q;
  if (verseFont != '') \x7b
  lyricsXml = lyricsXml & ' style=' & q & XmlEsc(verseFont) & q;
  \x7d
  lyricsXml = lyricsXml & '>' & nl;
  lyricsXml = lyricsXml & syllablesXml;
  lyricsXml = lyricsXml & '      </lyrics>' & nl;
  xml = xml & lyricsXml;
  \x7d
  \x7d
  return xml;
  \x7d\"
  DoExportSystemStaff \"(systemStaff) \x7b
  q = Chr(34);
  nl = Chr(10);
  xml = '  <system-staff>' & nl;
  barCount = systemStaff.BarCount;
  for b = 1 to barCount + 1 \x7b
  bar = systemStaff.NthBar(b);
  barXml = '    <bar n=' & q & b & q;
  barXml = barXml & ' length=' & q & bar.Length & q;
  barXml = barXml & '>' & nl;
  // Export all system objects
  for each obj in bar \x7b
  objXml = DoExportSysObject(obj, b);
  if (objXml != '') \x7b
  barXml = barXml & objXml;
  \x7d
  \x7d
  barXml = barXml & '    </bar>' & nl;
  xml = xml & barXml;
  \x7d
  xml = xml & '  </system-staff>' & nl;
  return xml;
  \x7d\"
  DoExportSysObject \"(obj, barNum) \x7b
  q = Chr(34);
  nl = Chr(10);
  type = obj.Type;
  if (type = 'SystemTextItem') \x7b
  style = obj.StyleId;
  // Tempo
  if (IsTempoStyle(style)) \x7b
  xml = '      <tempo';
  xml = xml & ' pos=' & q & obj.Position & q;
  xml = xml & ' text=' & q & XmlEsc(obj.Text) & q;
  xml = xml & ' dx=' & q & obj.Dx & q;
  xml = xml & ' dy=' & q & obj.Dy & q;
  xml = xml & '/>' & nl;
  return xml;
  \x7d
  // Rehearsal mark
  if (IsRehearsalStyle(style)) \x7b
  xml = '      <rehearsal';
  xml = xml & ' pos=' & q & obj.Position & q;
  xml = xml & ' type=' & q & 'custom' & q;
  xml = xml & '>' & XmlEsc(obj.Text) & '</rehearsal>' & nl;
  return xml;
  \x7d
  // Generic system text
  xml = '      <text';
  xml = xml & ' pos=' & q & obj.Position & q;
  xml = xml & ' style=' & q & XmlEsc(style) & q;
  xml = xml & ' dx=' & q & obj.Dx & q;
  xml = xml & ' dy=' & q & obj.Dy & q;
  xml = xml & '>' & XmlEsc(obj.Text) & '</text>' & nl;
  return xml;
  \x7d
  if (type = 'TimeSignature') \x7b
  return DoExportTimeSig(obj);
  \x7d
  if (type = 'KeySignature') \x7b
  return DoExportKeySig(obj);
  \x7d
  if (type = 'RehearsalMark') \x7b
  xml = '      <rehearsal';
  xml = xml & ' pos=' & q & obj.Position & q;
  xml = xml & ' type=' & q & 'auto' & q;
  xml = xml & ' n=' & q & obj.Mark & q;
  xml = xml & '>' & XmlEsc(obj.MarkAsText) & '</rehearsal>' & nl;
  return xml;
  \x7d
  if (type = 'SpecialBarline') \x7b
  return DoExportBarline(obj);
  \x7d
  return '';
  \x7d\"
  XmlEsc \"(text) \x7b
  text = utils.Replace(text, '&', '&amp;', True);
  text = utils.Replace(text, '<', '&lt;', True);
  text = utils.Replace(text, '>', '&gt;', True);
  return text;
  \x7d\"
  GetClefName \"(styleId) \x7b
  if (styleId = 'clef.treble') \x7b
  return 'treble';
  \x7d
  if (styleId = 'clef.g') \x7b
  return 'treble';
  \x7d
  if (styleId = 'clef.bass') \x7b
  return 'bass';
  \x7d
  if (styleId = 'clef.f') \x7b
  return 'bass';
  \x7d
  if (styleId = 'clef.alto') \x7b
  return 'alto';
  \x7d
  if (styleId = 'clef.c') \x7b
  return 'alto';
  \x7d
  if (styleId = 'clef.tenor') \x7b
  return 'tenor';
  \x7d
  if (styleId = 'clef.treble.down.8') \x7b
  return 'treble-8vb';
  \x7d
  if (styleId = 'clef.g.down.8') \x7b
  return 'treble-8vb';
  \x7d
  if (styleId = 'clef.treble.up.8') \x7b
  return 'treble-8va';
  \x7d
  if (styleId = 'clef.bass.down.8') \x7b
  return 'bass-8vb';
  \x7d
  if (styleId = 'clef.bass.up.8') \x7b
  return 'bass-8va';
  \x7d
  if (styleId = 'clef.percussion') \x7b
  return 'percussion';
  \x7d
  return 'treble';
  \x7d\"
  GetAccName \"(acc) \x7b
  if (acc = 0) \x7b
  return '';
  \x7d
  if (acc = 1) \x7b
  return '#';
  \x7d
  if (acc = 2) \x7b
  return 'x';
  \x7d
  if (acc = -1) \x7b
  return 'b';
  \x7d
  if (acc = -2) \x7b
  return 'bb';
  \x7d
  return '';
  \x7d\"
  GetStemDir \"(nr) \x7b
  // NoteRest only has StemFlipped (bool), not Stemless
  if (nr.StemFlipped) \x7b
  return 'flipped';
  \x7d
  return 'auto';
  \x7d\"
  GetBeamState \"(nr) \x7b
  beam = nr.Beam;
  if (beam = 0) \x7b
  return 'none';
  \x7d
  if (beam = 1) \x7b
  return 'start';
  \x7d
  if (beam = 2) \x7b
  return 'continue';
  \x7d
  if (beam = 3) \x7b
  return 'end';
  \x7d
  return 'auto';
  \x7d\"
  GetArticulations \"(nr) \x7b
  art = '';
  if (nr.GetArticulation(1)) \x7b
  art = art & 'staccato ';
  \x7d
  if (nr.GetArticulation(2)) \x7b
  art = art & 'staccatissimo ';
  \x7d
  if (nr.GetArticulation(3)) \x7b
  art = art & 'wedge ';
  \x7d
  if (nr.GetArticulation(4)) \x7b
  art = art & 'tenuto ';
  \x7d
  if (nr.GetArticulation(5)) \x7b
  art = art & 'accent ';
  \x7d
  if (nr.GetArticulation(6)) \x7b
  art = art & 'marcato ';
  \x7d
  if (nr.GetArticulation(7)) \x7b
  art = art & 'harmonic ';
  \x7d
  if (nr.GetArticulation(8)) \x7b
  art = art & 'plus ';
  \x7d
  if (nr.GetArticulation(9)) \x7b
  art = art & 'up-bow ';
  \x7d
  if (nr.GetArticulation(10)) \x7b
  art = art & 'down-bow ';
  \x7d
  if (nr.GetArticulation(13)) \x7b
  art = art & 'fermata ';
  \x7d
  if (nr.GetArticulation(12)) \x7b
  art = art & 'long-fermata ';
  \x7d
  if (nr.GetArticulation(14)) \x7b
  art = art & 'short-fermata ';
  \x7d
  // Trim trailing space
  if (art != '') \x7b
  art = Substring(art, 0, Length(art) - 1);
  \x7d
  return art;
  \x7d\"
  IsDynamic \"(style) \x7b
  if (utils.Pos('dynamic', style) >= 0) \x7b
  return True;
  \x7d
  if (utils.Pos('Dynamic', style) >= 0) \x7b
  return True;
  \x7d
  if (utils.Pos('expression', style) >= 0) \x7b
  return True;
  \x7d
  if (utils.Pos('Expression', style) >= 0) \x7b
  return True;
  \x7d
  return False;
  \x7d\"
  IsTempoStyle \"(style) \x7b
  if (utils.Pos('tempo', style) >= 0) \x7b
  return True;
  \x7d
  if (utils.Pos('Tempo', style) >= 0) \x7b
  return True;
  \x7d
  return False;
  \x7d\"
  IsRehearsalStyle \"(style) \x7b
  if (utils.Pos('rehearsal', style) >= 0) \x7b
  return True;
  \x7d
  if (utils.Pos('Rehearsal', style) >= 0) \x7b
  return True;
  \x7d
  return False;
  \x7d\"
  GetLyricVerse \"(styleId) \x7b
  if (utils.Pos('verse1', styleId) >= 0) \x7b
  return 1;
  \x7d
  if (utils.Pos('verse2', styleId) >= 0) \x7b
  return 2;
  \x7d
  if (utils.Pos('verse3', styleId) >= 0) \x7b
  return 3;
  \x7d
  if (utils.Pos('verse4', styleId) >= 0) \x7b
  return 4;
  \x7d
  if (utils.Pos('verse5', styleId) >= 0) \x7b
  return 5;
  \x7d
  if (utils.Pos('lyrics', styleId) >= 0) \x7b
  return 1;
  \x7d
  return 1;
  \x7d\"
  GetBreakType \"(bar) \x7b
  // BreakType is a property on Bar, not an object
  bt = bar.BreakType;
  if (bt = EndOfSystem or bt = EndOfSystemOrPage) \x7b
  return 'system';
  \x7d
  if (bt = EndOfPage or bt = SpecialPageBreak) \x7b
  return 'page';
  \x7d
  return '';
  \x7d\"
  \x7d")

end Partitura.Bundle.Export
