import Partitura.Bundle.Lines

/-!
# The Cyrus plugin

The plugin that moves the syllables of phonetic lyrics to those of the Cyrillic lyrics above them,
in the language of the notation program.
-/

namespace Partitura.Bundle.Cyrus

/-- The text of the plugin. -/
def text : String := indented ("\x7b
  Initialize \"() \x7b
  AddToPluginsMenu('Cyrus', 'Run');
  \x7d\"
  _version \"() \x7b
  // Build version displayed in progress dialog and report header
  return 46;
  \x7d\"
  Run \"() \x7b
  // Entry point: detect staves, process score, show report
  score = Sibelius.ActiveScore;
  if (null = score) \x7b
  Sibelius.MessageBox('No score is open.');
  return False;
  \x7d
  result = DetectLyricStaves(score);
  if (result = null) \x7b
  return False;
  \x7d
  startBar = result[0];
  endBar = result[1];
  selectedStaves = result[2];
  report = ProcessScore(score, startBar, endBar, selectedStaves);
  Sibelius.MessageBox(report);
  return True;
  \x7d\"
  ProcessScore \"(score, startBar, endBar, selectedStaves) \x7b
  // Main loop: iterate bars then staves, collect changes/skips/unresolved
  report = '';
  changeCount = 0;
  skippedCount = 0;
  boundariesChecked = 0;
  numStaves = 0;
  for i = 0 to 100 \x7b
  if (selectedStaves[i] = null) \x7b
  i = 100;
  \x7d else \x7b
  numStaves = numStaves + 1;
  \x7d
  \x7d
  totalBars = (endBar - startBar + 1) * numStaves;
  Sibelius.CreateProgressDialog('Cyrus v' & _version(), 0, 100);
  barsDone = 0;
  cancelled = False;
  currentSection = '';
  currentPage = 1;
  // ManuScript for-loop upper bound is exclusive, so +1 to include endBar
  for barNum = startBar to endBar + 1 \x7b
  if (not(cancelled)) \x7b
  // Get rehearsal mark from system staff
  sysBar = score.SystemStaff.NthBar(barNum);
  for each obj in sysBar \x7b
  if (obj.Type = 'RehearsalMark') \x7b
  currentSection = obj.MarkAsText;
  \x7d
  \x7d
  staffIdx = 0;
  for each staff in score \x7b
  if (not(cancelled)) \x7b
  isSelected = False;
  for i = 0 to 100 \x7b
  if (selectedStaves[i] = null) \x7b
  i = 100;
  \x7d else \x7b
  if (selectedStaves[i] = staff.StaffNum) \x7b
  isSelected = True;
  i = 100;
  \x7d
  \x7d
  \x7d
  if (isSelected) \x7b
  staffIdx = staffIdx + 1;
  staffName = staff.FullInstrumentName;
  if (staffName = '') \x7b
  staffName = staff.InstrumentName;
  \x7d
  pct = (barsDone * 100) / totalBars;
  progressMsg = 'Bar ' & barNum & '/' & endBar & Chr(10) & 'Staves: ' & numStaves;
  continueProcessing = Sibelius.UpdateProgressDialog(pct, progressMsg);
  if (not(continueProcessing)) \x7b
  cancelled = True;
  \x7d else \x7b
  bar = staff.NthBar(barNum);
  displayBarNum = bar.ExternalBarNumberString;
  if (bar.OnNthPage > 0) \x7b
  currentPage = bar.OnNthPage;
  \x7d
  result = ProcessBar(bar, barNum, displayBarNum, currentSection, currentPage, staffName);
  // Parse result tags: CHNG, SKIPS\x7bn\x7d|, UNRE
  if (Length(result) >= 4) \x7b
  for j = 0 to Length(result) - 3 \x7b
  tag = Substring(result, j, 4);
  if (tag = 'CHNG') \x7b
  changeCount = changeCount + 1;
  \x7d
  if (tag = 'SKIP') \x7b
  // SKIPS format: SKIPS\x7bcount\x7d| - extract the number
  endIdx = j + 5;
  numStr = '';
  while (endIdx < Length(result)) \x7b
  ch = Substring(result, endIdx, 1);
  if (ch = '0' or ch = '1' or ch = '2' or ch = '3' or ch = '4' or ch = '5' or ch = '6' or ch = " ++
    "'7' or ch = '8' or ch = '9') \x7b
  numStr = numStr & ch;
  endIdx = endIdx + 1;
  \x7d else \x7b
  endIdx = Length(result);
  \x7d
  \x7d
  if (numStr != '') \x7b
  skippedCount = skippedCount + (0 + numStr);
  \x7d
  \x7d
  if (tag = 'UNRE') \x7b
  boundariesChecked = boundariesChecked + 1;
  \x7d
  \x7d
  \x7d
  if (result != 'SKIP') \x7b
  report = report & result;
  \x7d
  \x7d
  barsDone = barsDone + 1;
  \x7d
  \x7d
  \x7d
  \x7d
  \x7d
  Sibelius.DestroyProgressDialog();
  header = '=== Cyrus Report (v' & _version() & ') ===' & Chr(10);
  if (cancelled) \x7b
  return header & Chr(10) & 'Processing cancelled.';
  \x7d
  header = header & 'Bars: ' &(endBar - startBar + 1) & Chr(10);
  header = header & 'Staves: ' & numStaves & Chr(10);
  header = header & 'Skipped: ' & skippedCount & Chr(10);
  header = header & 'Unresolved: ' & boundariesChecked & Chr(10);
  header = header & 'Changes: ' & changeCount & Chr(10);
  // Strip SKIPS markers from final report
  cleanReport = '';
  i = 0;
  while (i < Length(report)) \x7b
  if (Substring(report, i, 5) = 'SKIPS') \x7b
  while (i < Length(report) and Substring(report, i, 1) != '|') \x7b
  i = i + 1;
  \x7d
  i = i + 1;
  \x7d else \x7b
  cleanReport = cleanReport & Substring(report, i, 1);
  i = i + 1;
  \x7d
  \x7d
  fullReport = header & Chr(10) & cleanReport;
  filePath = Sibelius.SelectFileToSave('Save Cyrus Report', 'cyrus_report.txt', '', 'txt', 'TEXT');
  if (filePath != '') \x7b
  Sibelius.CreateTextFile(filePath);
  Sibelius.AppendTextFile(filePath, fullReport, True);
  return header & Chr(10) & 'Report saved to: ' & filePath;
  \x7d
  return header;
  \x7d\"
  ProcessBar \"(bar, barNum, displayBarNum, section, page, staffName) \x7b
  // Collect Cyrillic (verse1) and IPA (verse2) lyrics, process syllable pairs
  report = '';
  skipCount = 0;
  cyrillic = CreateSparseArray();
  ipa = CreateSparseArray();
  cyrSylType = CreateSparseArray();
  for each obj in bar \x7b
  if (obj.Type = 'LyricItem') \x7b
  pos = obj.Position;
  style = obj.StyleId;
  if (StyleIsVerse1(style)) \x7b
  cyrillic[pos] = obj.Text;
  cyrSylType[pos] = obj.SyllableType;
  \x7d else \x7b
  if (StyleIsVerse2(style)) \x7b
  ipa[pos] = obj;
  \x7d
  \x7d
  \x7d
  \x7d
  positions = GetSortedPositions(cyrillic);
  // Process consecutive syllable pairs (only mid-word boundaries)
  for i = 0 to 1000 \x7b
  pos = positions[i];
  if (pos = null) \x7b
  i = 1000;
  \x7d else \x7b
  cyrText = cyrillic[pos];
  ipaObj = ipa[pos];
  if (ipaObj != null) \x7b
  sylType = cyrSylType[pos];
  // MiddleOfWord means there is a following syllable in same word
  if (sylType = MiddleOfWord) \x7b
  nextPos = positions[i + 1];
  if (nextPos != null) \x7b
  nextCyrText = cyrillic[nextPos];
  nextIpaObj = ipa[nextPos];
  if (nextCyrText != null and nextIpaObj != null) \x7b
  result = ProcessSyllableBoundary(cyrText, ipaObj, nextCyrText, nextIpaObj, barNum, " ++
    "displayBarNum, section, page, pos, staffName);
  if (result = 'SKIP') \x7b
  skipCount = skipCount + 1;
  \x7d else \x7b
  report = report & result;
  \x7d
  \x7d
  \x7d
  \x7d
  \x7d
  \x7d
  \x7d
  if (skipCount > 0) \x7b
  report = 'SKIPS' & skipCount & '|' & report;
  \x7d
  return report;
  \x7d\"
  ProcessSyllableBoundary \"(cyrA, ipaObjA, cyrB, ipaObjB, barNum, displayBarNum, section, " ++
    "page, pos, staffName) \x7b
  // Compare Cyrillic and IPA syllable boundaries, move consonants if needed.
  // cyrA/cyrB = Cyrillic syllables, ipaObjA/ipaObjB = IPA lyric objects
  ipaA = ipaObjA.Text;
  ipaB = ipaObjB.Text;
  // Skip non-Cyrillic text (e.g., French sections)
  if (not(ContainsCyrillic(cyrA)) and not(ContainsCyrillic(cyrB))) \x7b
  return 'SKIP';
  \x7d
  // Extract expected IPA onset alternatives from Cyrillic second syllable
  cyrOnset = ExtractCyrillicOnset(cyrB);
  expectedAlts = MapCyrillicToIpa(cyrOnset);
  // Handle stress marker at start of IPA syllable
  hasStress = False;
  ipaBWork = ipaB;
  if (Length(ipaB) > 0) \x7b
  fc = Substring(ipaB, 0, 1);
  if (IsStressMarker(fc)) \x7b
  hasStress = True;
  ipaBWork = Substring(ipaB, 1, Length(ipaB) - 1);
  \x7d
  \x7d
  actualOnset = ExtractIpaOnset(ipaBWork);
  // Already correct (matches any alternative)
  if (OnsetMatches(actualOnset, expectedAlts)) \x7b
  return 'SKIP';
  \x7d
  // Palatalizing vowel exception: ya/ye/yo/yu carry inherent j sound
  if (StartsWithPalatalizingVowel(cyrB) and IsJotatedVowelOnset(ipaBWork)) \x7b
  return 'SKIP';
  \x7d
  // Calculate how many consonant units to move
  unitsToMove = CalculateUnitsToMove(ipaBWork, expectedAlts);
  if (unitsToMove = 0) \x7b
  return 'SKIP';
  \x7d
  // Could not find a match - flag as unresolved
  if (unitsToMove < 0) \x7b
  // Show first alternative in report for readability
  expectedDisplay = '';
  if (expectedAlts[0] != null) \x7b
  expectedDisplay = expectedAlts[0];
  \x7d
  loc = BuildLocation(page, section, displayBarNum, pos);
  return 'UNRE ' & loc & ', ' & staffName & ': ' & ipaA & '-' & ipaB & ' (cyr: ' & cyrA & '-' & " ++
    "cyrB & ', expected: ' & expectedDisplay & ')' & Chr(10);
  \x7d
  // Move consonants from ipaB to ipaA
  toMove = ExtractConsonantUnits(ipaBWork, unitsToMove);
  remaining = Substring(ipaBWork, Length(toMove), Length(ipaBWork) - Length(toMove));
  newIpaA = ipaA & toMove;
  newIpaB = remaining;
  // Restore stress marker
  if (hasStress) \x7b
  newIpaB = GetStressMarker() & newIpaB;
  \x7d
  // Apply changes
  ipaObjA.Text = newIpaA;
  ipaObjB.Text = newIpaB;
  loc = BuildLocation(page, section, displayBarNum, pos);
  return 'CHNG ' & loc & ', ' & staffName & ': ' & ipaA & '-' & ipaB & ' -> ' & newIpaA & '-' & " ++
    "newIpaB & ' (cyr: ' & cyrA & '-' & cyrB & ')' & Chr(10);
  \x7d\"
  BuildLocation \"(page, section, displayBarNum, pos) \x7b
  // Build location string like: p4 [B] Bar 8, Beat 1
  // Sibelius uses 256 ticks per quarter note
  beat = (pos / 256) + 1;
  loc = 'p' & page;
  if (section != '') \x7b
  loc = loc & ' [' & section & ']';
  \x7d
  loc = loc & ' Bar ' & displayBarNum & ', Beat ' & beat;
  return loc;
  \x7d\"
  ExtractCyrillicOnset \"(text) \x7b
  // Extract consonants before first vowel
  onset = '';
  vowels = GetCyrillicVowels();
  if (Length(text) > 0) \x7b
  for i = 0 to Length(text) \x7b
  c = Substring(text, i, 1);
  if (CharInString(c, vowels)) \x7b
  return onset;
  \x7d
  onset = onset & c;
  \x7d
  \x7d
  return onset;
  \x7d\"
  MapCyrillicToIpa \"(cyrOnset) \x7b
  // Convert Cyrillic consonant cluster to array of all possible IPA onsets.
  // Returns a SparseArray of alternative strings (cross-product of per-letter alts).
  // Special clusters: сч/зч/жч -> ʃ (single alternative)
  result = CreateSparseArray();
  if (cyrOnset = 'сч' or cyrOnset = 'зч' or cyrOnset = 'жч') \x7b
  result[0] = 'ʃ';
  return result;
  \x7d
  if (cyrOnset = '') \x7b
  result[0] = '';
  return result;
  \x7d
  // Start with one empty alternative
  result[0] = '';
  resultCount = 1;
  for i = 0 to Length(cyrOnset) \x7b
  c = Substring(cyrOnset, i, 1);
  alts = MapSingleCyrillicConsonant(c);
  // Split alts by pipe
  altArr = CreateSparseArray();
  altCount = 0;
  current = '';
  for j = 0 to Length(alts) \x7b
  ch = Substring(alts, j, 1);
  if (ch = '|') \x7b
  altArr[altCount] = current;
  altCount = altCount + 1;
  current = '';
  \x7d else \x7b
  current = current & ch;
  \x7d
  \x7d
  altArr[altCount] = current;
  altCount = altCount + 1;
  // Cross-product: each existing result × each alternative
  newResult = CreateSparseArray();
  newCount = 0;
  for r = 0 to resultCount \x7b
  for a = 0 to altCount \x7b
  if (result[r] != null and altArr[a] != null) \x7b
  newResult[newCount] = result[r] & altArr[a];
  newCount = newCount + 1;
  \x7d
  \x7d
  \x7d
  result = newResult;
  resultCount = newCount;
  \x7d
  return result;
  \x7d\"
  MapSingleCyrillicConsonant \"(c) \x7b
  // Single Cyrillic consonant to pipe-delimited IPA alternatives.
  // Alternatives account for devoicing, voicing assimilation, etc.
  // Diacritics (ʲ, ː) are stripped during matching, so only base forms needed.
  if (c = 'п') \x7b
  return 'p|b';
  \x7d
  if (c = 'б') \x7b
  return 'b|p';
  \x7d
  if (c = 'т') \x7b
  return 't|d';
  \x7d
  if (c = 'д') \x7b
  return 'd|t';
  \x7d
  if (c = 'к') \x7b
  return 'k|g';
  \x7d
  if (c = 'г') \x7b
  return 'g|k|v|x';
  \x7d
  // devoicing, genitive в, бог→box
  if (c = 'м') \x7b
  return 'm';
  \x7d
  if (c = 'н') \x7b
  return 'n';
  \x7d
  if (c = 'р') \x7b
  return 'r';
  \x7d
  if (c = 'ф') \x7b
  return 'f|v';
  \x7d
  if (c = 'в') \x7b
  return 'v|f';
  \x7d
  if (c = 'с') \x7b
  return 's|z';
  \x7d
  if (c = 'з') \x7b
  return 'z|s';
  \x7d
  if (c = 'ш') \x7b
  return 'ʃ|ʒ';
  \x7d
  if (c = 'ж') \x7b
  return 'ʒ|ʃ';
  \x7d
  if (c = 'щ') \x7b
  return 'ʃ';
  \x7d
  if (c = 'ч') \x7b
  return 't\u0361ʃ|ʃ|d\u0361ʒ';
  \x7d
  // скучно→skuʃnʌ
  if (c = 'ц') \x7b
  return 't\u0361s|d\u0361z';
  \x7d
  if (c = 'й') \x7b
  return 'j';
  \x7d
  if (c = 'х') \x7b
  return 'x';
  \x7d
  if (c = 'л') \x7b
  return 'l';
  \x7d
  if (c = 'ь') \x7b
  return '';
  \x7d
  if (c = 'ъ') \x7b
  return '';
  \x7d
  return '';
  \x7d\"
  ExtractIpaOnset \"(text) \x7b
  // Extract consonant units before first vowel
  onset = '';
  vowels = GetIpaVowels();
  i = 0;
  while (i < Length(text)) \x7b
  c = Substring(text, i, 1);
  if (CharInString(c, vowels)) \x7b
  return onset;
  \x7d
  unit = ExtractOneConsonantUnit(text, i);
  onset = onset & unit;
  i = i + Length(unit);
  \x7d
  return onset;
  \x7d\"
  ExtractOneConsonantUnit \"(text, startIdx) \x7b
  // Extract one consonant unit: base + optional tie bar + diacritics
  // Examples: t, t\u0361ʃ, tʲ, t\u0361ʃʲː
  if (startIdx >= Length(text)) \x7b
  return '';
  \x7d
  unit = '';
  c = Substring(text, startIdx, 1);
  unit = unit & c;
  idx = startIdx + 1;
  // Check for tie bar (affricate like t\u0361ʃ)
  if (idx < Length(text)) \x7b
  nxt = Substring(text, idx, 1);
  if (IsTieBar(nxt)) \x7b
  unit = unit & nxt;
  idx = idx + 1;
  if (idx < Length(text)) \x7b
  nxt = Substring(text, idx, 1);
  unit = unit & nxt;
  idx = idx + 1;
  \x7d
  \x7d
  \x7d
  // Collect trailing diacritics
  while (idx < Length(text)) \x7b
  nxt = Substring(text, idx, 1);
  if (IsDiacritic(nxt)) \x7b
  unit = unit & nxt;
  idx = idx + 1;
  \x7d else \x7b
  idx = Length(text);
  \x7d
  \x7d
  return unit;
  \x7d\"
  OnsetMatches \"(actualOnset, expectedAlts) \x7b
  // Compare actual onset against any alternative in expectedAlts (SparseArray).
  normalizedActual = NormalizeIpaForMatching(actualOnset);
  for i = 0 to 1000 \x7b
  if (expectedAlts[i] = null) \x7b
  return False;
  \x7d
  normalizedExpected = NormalizeIpaForMatching(expectedAlts[i]);
  if (normalizedActual = normalizedExpected) \x7b
  return True;
  \x7d
  \x7d
  return False;
  \x7d\"
  NormalizeIpaForMatching \"(text) \x7b
  // Strip diacritics/tie bars, normalize variants (dark L, IPA g)
  result = '';
  if (Length(text) > 0) \x7b
  for i = 0 to Length(text) \x7b
  c = Substring(text, i, 1);
  if (not(IsDiacritic(c)) and not(IsTieBar(c))) \x7b
  if (c = 'ɫ') \x7b
  result = result & 'l';
  \x7d else \x7b
  if (c = 'ɡ') \x7b
  result = result & 'g';
  \x7d else \x7b
  result = result & c;
  \x7d
  \x7d
  \x7d
  \x7d
  \x7d
  return result;
  \x7d\"
  CalculateUnitsToMove \"(ipaB, expectedAlts) \x7b
  // Find how many consonant units to move so remaining matches any expected alt.
  // expectedAlts is a SparseArray of alternative IPA strings.
  // Returns -1 if no match found (unresolved).
  // Check if all alternatives are empty (no consonant expected)
  allEmpty = True;
  for a = 0 to 1000 \x7b
  if (expectedAlts[a] = null) \x7b
  a = 1000;
  \x7d else \x7b
  if (expectedAlts[a] != '') \x7b
  allEmpty = False;
  a = 1000;
  \x7d
  \x7d
  \x7d
  if (allEmpty) \x7b
  onset = ExtractIpaOnset(ipaB);
  return CountConsonantUnits(onset);
  \x7d
  onset = ExtractIpaOnset(ipaB);
  totalUnits = CountConsonantUnits(onset);
  // Try removing 0, 1, 2... units until remaining matches any alternative
  for unitsToRemove = 0 to totalUnits + 1 \x7b
  remaining = RemoveNConsonantUnits(onset, unitsToRemove);
  normalizedRemaining = NormalizeIpaForMatching(remaining);
  for a = 0 to 1000 \x7b
  if (expectedAlts[a] = null) \x7b
  a = 1000;
  \x7d else \x7b
  normalizedExpected = NormalizeIpaForMatching(expectedAlts[a]);
  if (normalizedRemaining = normalizedExpected) \x7b
  return unitsToRemove;
  \x7d
  \x7d
  \x7d
  \x7d
  return -1;
  \x7d\"
  CountConsonantUnits \"(text) \x7b
  // Count consonant units (affricates count as 1)
  count = 0;
  idx = 0;
  while (idx < Length(text)) \x7b
  unit = ExtractOneConsonantUnit(text, idx);
  if (unit = '') \x7b
  idx = Length(text);
  \x7d else \x7b
  count = count + 1;
  idx = idx + Length(unit);
  \x7d
  \x7d
  return count;
  \x7d\"
  ExtractConsonantUnits \"(text, numUnits) \x7b
  // Extract first N consonant units
  result = '';
  idx = 0;
  if (numUnits > 0) \x7b
  for u = 1 to numUnits + 1 \x7b
  if (idx < Length(text)) \x7b
  unit = ExtractOneConsonantUnit(text, idx);
  result = result & unit;
  idx = idx + Length(unit);
  \x7d
  \x7d
  \x7d
  return result;
  \x7d\"
  RemoveNConsonantUnits \"(text, n) \x7b
  // Return text with first N consonant units removed
  idx = 0;
  if (n > 0) \x7b
  for u = 1 to n + 1 \x7b
  if (idx < Length(text)) \x7b
  unit = ExtractOneConsonantUnit(text, idx);
  idx = idx + Length(unit);
  \x7d
  \x7d
  \x7d
  return Substring(text, idx, Length(text) - idx);
  \x7d\"
  GetCyrillicVowels \"() \x7b
  // Cyrillic vowels (add uppercase if needed)
  return 'аеёиоуыэюяАЕЁИОУЫЭЮЯ';
  \x7d\"
  GetPalatalizingVowels \"() \x7b
  // Vowels that carry inherent j: я=ja, е=je, ё=jo, ю=ju
  return 'яеёюЯЕЁЮ';
  \x7d\"
  StartsWithPalatalizingVowel \"(cyrText) \x7b
  if (Length(cyrText) = 0) \x7b
  return False;
  \x7d
  firstChar = Substring(cyrText, 0, 1);
  return CharInString(firstChar, GetPalatalizingVowels());
  \x7d\"
  IsJotatedVowelOnset \"(ipaOnset) \x7b
  // Check for j + vowel pattern (jotated vowel)
  if (Length(ipaOnset) < 2) \x7b
  return False;
  \x7d
  if (Substring(ipaOnset, 0, 1) != 'j') \x7b
  return False;
  \x7d
  secondChar = Substring(ipaOnset, 1, 1);
  return CharInString(secondChar, GetIpaVowels());
  \x7d\"
  GetIpaVowels \"() \x7b
  // IPA vowels used in transcription (includes extras for robustness)
  return 'ɑʌɐeɛɪiouaæɨəɔøʊy';
  \x7d\"
  GetStressMarker \"() \x7b
  return 'ˈ';
  \x7d\"
  IsStressMarker \"(c) \x7b
  return(c = 'ˈ');
  \x7d\"
  IsTieBar \"(c) \x7b
  // Tie bar for affricates: t\u0361ʃ, t\u0361s
  return(c = '\u0361');
  \x7d\"
  IsDiacritic \"(c) \x7b
  // Diacritics that modify consonants
  diacritics = 'ʲːˑ\u031f\u0303';
  return CharInString(c, diacritics);
  \x7d\"
  ContainsCyrillic \"(text) \x7b
  // Check if text contains any Cyrillic character (vowel or consonant).
  // Used to skip non-Cyrillic sections (e.g., French).
  cyrChars = GetCyrillicVowels() & 'бвгджзйклмнпрстфхцчшщъьБВГДЖЗЙКЛМНПРСТФХЦЧШЩЪЬ';
  for i = 0 to Length(text) \x7b
  if (CharInString(Substring(text, i, 1), cyrChars)) \x7b
  return True;
  \x7d
  \x7d
  return False;
  \x7d\"
  CharInString \"(c, str) \x7b
  if (Length(str) > 0) \x7b
  for i = 0 to Length(str) \x7b
  if (Substring(str, i, 1) = c) \x7b
  return True;
  \x7d
  \x7d
  \x7d
  return False;
  \x7d\"
  GetSortedPositions \"(arr) \x7b
  // Get array indices with values, in order (max 4096 ticks per bar)
  positions = CreateSparseArray();
  count = 0;
  for pos = 0 to 4096 \x7b
  if (arr[pos] != null) \x7b
  positions[count] = pos;
  count = count + 1;
  \x7d
  \x7d
  return positions;
  \x7d\"
  StyleIsVerse1 \"(styleId) \x7b
  // Verse 1 = Cyrillic text
  return(styleId = 'text.staff.space.hypen.lyrics.verse1');
  \x7d\"
  StyleIsVerse2 \"(styleId) \x7b
  // Verse 2 = IPA transcription
  return(styleId = 'text.staff.space.hypen.lyrics.verse2');
  \x7d\"
  DetectLyricStaves \"(score) \x7b
  // Auto-detect staves with lyrics by scanning first 200 bars
  stavesWithLyrics = CreateSparseArray();
  idx = 0;
  barCount = score.SystemStaff.BarCount;
  checkBars = 200;
  if (barCount < checkBars) \x7b
  checkBars = barCount;
  \x7d
  for each staff in score \x7b
  hasLyrics = False;
  for barNum = 1 to checkBars + 1 \x7b
  bar = staff.NthBar(barNum);
  for each obj in bar \x7b
  if (obj.Type = 'LyricItem') \x7b
  hasLyrics = True;
  \x7d
  \x7d
  if (hasLyrics) \x7b
  barNum = checkBars + 1;
  \x7d
  \x7d
  if (hasLyrics) \x7b
  stavesWithLyrics[idx] = staff.StaffNum;
  idx = idx + 1;
  \x7d
  \x7d
  if (idx = 0) \x7b
  Sibelius.MessageBox('No staves with lyrics found.');
  return null;
  \x7d
  result = CreateSparseArray();
  result[0] = 1;
  result[1] = barCount;
  result[2] = stavesWithLyrics;
  return result;
  \x7d\"
  \x7d")

end Partitura.Bundle.Cyrus
