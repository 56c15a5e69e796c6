import CallTree.Text.Range

/-!
# Case mappings of single characters

The mappings of Unicode from a character to its lower and to its upper case.
Most characters map to one character at a fixed distance, and characters at the
same distance come in runs of every one or every other code point: such a run,
with its target, is a `Shift`. A few map to several characters.

Beside the mappings stand the classes that the rules for whole texts ask for:
upper-case letters, letters that have case at all, and characters that are
passed over when one looks for such a letter.
-/

namespace CallTree.Text.CaseTable

open Range (codePoint)

/-- **A run of characters**: every `step`-th one from `first` to `last`. -/
structure Run where
  first : Nat
  last : Nat
  step : Nat

/-- Whether the run holds the code point. -/
def Run.holds (r : Run) (n : Nat) : Bool :=
  r.first ≤ n && n ≤ r.last && (n - r.first) % r.step = 0

/-- The run that a word stands for: a range, and the step behind a star. -/
def Run.ofWord (word : List Char) : Run :=
  match pieces '*' word with
  | [range, step] => ⟨(Range.ofWord range).first, (Range.ofWord range).last, codePoint step⟩
  | _ => ⟨(Range.ofWord word).first, (Range.ofWord word).last, 1⟩

/-- **The runs that lines of words stand for.** -/
def Run.table (lines : List String) : Array Run := ((lines.flatMap words).map ofWord).toArray

/-- **A run of characters that map alike**: the first one maps to `target`, and the others
map to what is as far from `target` as they are from the first. What the characters map
to goes on with `more`. -/
structure Shift where
  run : Run
  target : Nat
  more : List Nat

/-- The shift that a word stands for: a run and, behind an arrow, what its first character
maps to, with dots between. -/
def Shift.ofWord (word : List Char) : Shift :=
  let left := word.takeWhile (· ≠ '>')
  let right := (pieces '.' (word.drop (left.length + 1))).map codePoint
  ⟨.ofWord left, right.headD 0, right.tail⟩

/-- **The shifts that lines of words stand for.** -/
def Shift.table (lines : List String) : List Shift := (lines.flatMap words).map ofWord

/-- The code points that a shift of the table sends `n` to, if one holds it. -/
def shifted (table : List Shift) (n : Nat) : Option (List Nat) :=
  (table.find? (·.run.holds n)).map fun s => (s.target + (n - s.run.first)) :: s.more

/-- The characters that have a lower case. -/
def lowerShifts : List Shift := Shift.table [
  "41-5A>61 C0-D6>E0 D8-DE>F8 100-12E*2>101 130>69.307 132-136*2>133 139-147*2>13A 14A-176*2>14B",
  "178>FF 179-17D*2>17A 181>253 182-184*2>183 186>254 187>188 189-18A>256 18B>18C 18E>1DD 18F>259",
  "190>25B 191>192 193>260 194>263 196>269 197>268 198>199 19C>26F 19D>272 19F>275 1A0-1A4*2>1A1",
  "1A6>280 1A7>1A8 1A9>283 1AC>1AD 1AE>288 1AF>1B0 1B1-1B2>28A 1B3-1B5*2>1B4 1B7>292 1B8>1B9",
  "1BC>1BD 1C4>1C6 1C5>1C6 1C7>1C9 1C8>1C9 1CA>1CC 1CB-1DB*2>1CC 1DE-1EE*2>1DF 1F1>1F3",
  "1F2-1F4*2>1F3 1F6>195 1F7>1BF 1F8-21E*2>1F9 220>19E 222-232*2>223 23A>2C65 23B>23C 23D>19A",
  "23E>2C66 241>242 243>180 244>289 245>28C 246-24E*2>247 370-372*2>371 376>377 37F>3F3 386>3AC",
  "388-38A>3AD 38C>3CC 38E-38F>3CD 391-3A1>3B1 3A3-3AB>3C3 3CF>3D7 3D8-3EE*2>3D9 3F4>3B8 3F7>3F8",
  "3F9>3F2 3FA>3FB 3FD-3FF>37B 400-40F>450 410-42F>430 460-480*2>461 48A-4BE*2>48B 4C0>4CF",
  "4C1-4CD*2>4C2 4D0-52E*2>4D1 531-556>561 10A0-10C5>2D00 10C7>2D27 10CD>2D2D 13A0-13EF>AB70",
  "13F0-13F5>13F8 1C90-1CBA>10D0 1CBD-1CBF>10FD 1E00-1E94*2>1E01 1E9E>DF 1EA0-1EFE*2>1EA1",
  "1F08-1F0F>1F00 1F18-1F1D>1F10 1F28-1F2F>1F20 1F38-1F3F>1F30 1F48-1F4D>1F40 1F59-1F5F*2>1F51",
  "1F68-1F6F>1F60 1F88-1F8F>1F80 1F98-1F9F>1F90 1FA8-1FAF>1FA0 1FB8-1FB9>1FB0 1FBA-1FBB>1F70",
  "1FBC>1FB3 1FC8-1FCB>1F72 1FCC>1FC3 1FD8-1FD9>1FD0 1FDA-1FDB>1F76 1FE8-1FE9>1FE0 1FEA-1FEB>1F7A",
  "1FEC>1FE5 1FF8-1FF9>1F78 1FFA-1FFB>1F7C 1FFC>1FF3 2126>3C9 212A>6B 212B>E5 2132>214E",
  "2160-216F>2170 2183>2184 24B6-24CF>24D0 2C00-2C2F>2C30 2C60>2C61 2C62>26B 2C63>1D7D 2C64>27D",
  "2C67-2C6B*2>2C68 2C6D>251 2C6E>271 2C6F>250 2C70>252 2C72>2C73 2C75>2C76 2C7E-2C7F>23F",
  "2C80-2CE2*2>2C81 2CEB-2CED*2>2CEC 2CF2>2CF3 A640-A66C*2>A641 A680-A69A*2>A681 A722-A72E*2>A723",
  "A732-A76E*2>A733 A779-A77B*2>A77A A77D>1D79 A77E-A786*2>A77F A78B>A78C A78D>265",
  "A790-A792*2>A791 A796-A7A8*2>A797 A7AA>266 A7AB>25C A7AC>261 A7AD>26C A7AE>26A A7B0>29E",
  "A7B1>287 A7B2>29D A7B3>AB53 A7B4-A7C2*2>A7B5 A7C4>A794 A7C5>282 A7C6>1D8E A7C7-A7C9*2>A7C8",
  "A7D0>A7D1 A7D6-A7D8*2>A7D7 A7F5>A7F6 FF21-FF3A>FF41 10400-10427>10428 104B0-104D3>104D8",
  "10570-1057A>10597 1057C-1058A>105A3 1058C-10592>105B3 10594-10595>105BB 10C80-10CB2>10CC0",
  "118A0-118BF>118C0 16E40-16E5F>16E60 1E900-1E921>1E922"]

/-- The characters that have an upper case. -/
def upperShifts : List Shift := Shift.table [
  "61-7A>41 B5>39C DF>53.53 E0-F6>C0 F8-FE>D8 FF>178 101-12F*2>100 131>49 133-137*2>132",
  "13A-148*2>139 149>2BC.4E 14B-177*2>14A 17A-17E*2>179 17F>53 180>243 183-185*2>182 188>187",
  "18C>18B 192>191 195>1F6 199>198 19A>23D 19E>220 1A1-1A5*2>1A0 1A8>1A7 1AD>1AC 1B0>1AF",
  "1B4-1B6*2>1B3 1B9>1B8 1BD>1BC 1BF>1F7 1C5>1C4 1C6>1C4 1C8>1C7 1C9>1C7 1CB>1CA 1CC>1CA",
  "1CE-1DC*2>1CD 1DD>18E 1DF-1EF*2>1DE 1F0>4A.30C 1F2>1F1 1F3>1F1 1F5>1F4 1F9-21F*2>1F8",
  "223-233*2>222 23C>23B 23F-240>2C7E 242>241 247-24F*2>246 250>2C6F 251>2C6D 252>2C70 253>181",
  "254>186 256-257>189 259>18F 25B>190 25C>A7AB 260>193 261>A7AC 263>194 265>A78D 266>A7AA",
  "268>197 269>196 26A>A7AE 26B>2C62 26C>A7AD 26F>19C 271>2C6E 272>19D 275>19F 27D>2C64 280>1A6",
  "282>A7C5 283>1A9 287>A7B1 288>1AE 289>244 28A-28B>1B1 28C>245 292>1B7 29D>A7B2 29E>A7B0",
  "345>399 371-373*2>370 377>376 37B-37D>3FD 390>399.308.301 3AC>386 3AD-3AF>388 3B0>3A5.308.301",
  "3B1-3C1>391 3C2>3A3 3C3-3CB>3A3 3CC>38C 3CD-3CE>38E 3D0>392 3D1>398 3D5>3A6 3D6>3A0 3D7>3CF",
  "3D9-3EF*2>3D8 3F0>39A 3F1>3A1 3F2>3F9 3F3>37F 3F5>395 3F8>3F7 3FB>3FA 430-44F>410 450-45F>400",
  "461-481*2>460 48B-4BF*2>48A 4C2-4CE*2>4C1 4CF>4C0 4D1-52F*2>4D0 561-586>531 587>535.552",
  "10D0-10FA>1C90 10FD-10FF>1CBD 13F8-13FD>13F0 1C80>412 1C81>414 1C82>41E 1C83-1C84>421 1C85>422",
  "1C86>42A 1C87>462 1C88>A64A 1D79>A77D 1D7D>2C63 1D8E>A7C6 1E01-1E95*2>1E00 1E96>48.331",
  "1E97>54.308 1E98>57.30A 1E99>59.30A 1E9A>41.2BE 1E9B>1E60 1EA1-1EFF*2>1EA0 1F00-1F07>1F08",
  "1F10-1F15>1F18 1F20-1F27>1F28 1F30-1F37>1F38 1F40-1F45>1F48 1F50>3A5.313 1F51-1F57*2>1F59",
  "1F52>3A5.313.300 1F54>3A5.313.301 1F56>3A5.313.342 1F60-1F67>1F68 1F70-1F71>1FBA",
  "1F72-1F75>1FC8 1F76-1F77>1FDA 1F78-1F79>1FF8 1F7A-1F7B>1FEA 1F7C-1F7D>1FFA 1F80-1F87>1F08.399",
  "1F88-1F8F>1F08.399 1F90-1F97>1F28.399 1F98-1F9F>1F28.399 1FA0-1FA7>1F68.399 1FA8-1FAF>1F68.399",
  "1FB0-1FB1>1FB8 1FB2>1FBA.399 1FB3>391.399 1FB4>386.399 1FB6>391.342 1FB7>391.342.399",
  "1FBC>391.399 1FBE>399 1FC2>1FCA.399 1FC3>397.399 1FC4>389.399 1FC6>397.342 1FC7>397.342.399",
  "1FCC>397.399 1FD0-1FD1>1FD8 1FD2>399.308.300 1FD3>399.308.301 1FD6>399.342 1FD7>399.308.342",
  "1FE0-1FE1>1FE8 1FE2>3A5.308.300 1FE3>3A5.308.301 1FE4>3A1.313 1FE5>1FEC 1FE6>3A5.342",
  "1FE7>3A5.308.342 1FF2>1FFA.399 1FF3>3A9.399 1FF4>38F.399 1FF6>3A9.342 1FF7>3A9.342.399",
  "1FFC>3A9.399 214E>2132 2170-217F>2160 2184>2183 24D0-24E9>24B6 2C30-2C5F>2C00 2C61>2C60",
  "2C65>23A 2C66>23E 2C68-2C6C*2>2C67 2C73>2C72 2C76>2C75 2C81-2CE3*2>2C80 2CEC-2CEE*2>2CEB",
  "2CF3>2CF2 2D00-2D25>10A0 2D27>10C7 2D2D>10CD A641-A66D*2>A640 A681-A69B*2>A680",
  "A723-A72F*2>A722 A733-A76F*2>A732 A77A-A77C*2>A779 A77F-A787*2>A77E A78C>A78B A791-A793*2>A790",
  "A794>A7C4 A797-A7A9*2>A796 A7B5-A7C3*2>A7B4 A7C8-A7CA*2>A7C7 A7D1>A7D0 A7D7-A7D9*2>A7D6",
  "A7F6>A7F5 AB53>A7B3 AB70-ABBF>13A0 FB00>46.46 FB01>46.49 FB02>46.4C FB03>46.46.49",
  "FB04>46.46.4C FB05>53.54 FB06>53.54 FB13>544.546 FB14>544.535 FB15>544.53B FB16>54E.546",
  "FB17>544.53D FF41-FF5A>FF21 10428-1044F>10400 104D8-104FB>104B0 10597-105A1>10570",
  "105A3-105B1>1057C 105B3-105B9>1058C 105BB-105BC>10594 10CC0-10CF2>10C80 118C0-118DF>118A0",
  "16E60-16E7F>16E40 1E922-1E943>1E900"]

/-- The upper-case letters: every one or every other code point of a run. -/
def upperRuns : Array Run := Run.table [
  "41-5A C0-D6 D8-DE 100-136*2 139-147*2 14A-178*2 179-17D*2 181-182 184-186*2 187-189*2 18A-18B",
  "18E-191 193-194 196-198 19C-19D 19F-1A0 1A2-1A6*2 1A7-1A9*2 1AC-1AE*2 1AF-1B1*2 1B2-1B3",
  "1B5-1B7*2 1B8 1BC 1C4 1C7 1CA 1CD-1DB*2 1DE-1EE*2 1F1 1F4-1F6*2 1F7-1F8 1FA-232*2 23A-23B",
  "23D-23E 241-243*2 244-246 248-24E*2 370-372*2 376 37F 386-388*2 389-38A 38C-38E*2 38F-391*2",
  "392-3A1 3A3-3AB 3CF 3D2-3D4 3D8-3EE*2 3F4 3F7-3F9*2 3FA 3FD-42F 460-480*2 48A-4C0*2 4C1-4CD*2",
  "4D0-52E*2 531-556 10A0-10C5 10C7 10CD 13A0-13F5 1C90-1CBA 1CBD-1CBF 1E00-1E94*2 1E9E-1EFE*2",
  "1F08-1F0F 1F18-1F1D 1F28-1F2F 1F38-1F3F 1F48-1F4D 1F59-1F5F*2 1F68-1F6F 1FB8-1FBB 1FC8-1FCB",
  "1FD8-1FDB 1FE8-1FEC 1FF8-1FFB 2102 2107 210B-210D 2110-2112 2115 2119-211D 2124-212A*2",
  "212B-212D 2130-2133 213E-213F 2145 2160-216F 2183 24B6-24CF 2C00-2C2F 2C60-2C62*2 2C63-2C64",
  "2C67-2C6D*2 2C6E-2C70 2C72 2C75 2C7E-2C80 2C82-2CE2*2 2CEB-2CED*2 2CF2 A640-A66C*2 A680-A69A*2",
  "A722-A72E*2 A732-A76E*2 A779-A77D*2 A77E-A786*2 A78B-A78D*2 A790-A792*2 A796-A7AA*2 A7AB-A7AE",
  "A7B0-A7B4 A7B6-A7C4*2 A7C5-A7C7 A7C9 A7D0 A7D6-A7D8*2 A7F5 FF21-FF3A 10400-10427 104B0-104D3",
  "10570-1057A 1057C-1058A 1058C-10592 10594-10595 10C80-10CB2 118A0-118BF 16E40-16E5F",
  "1D400-1D419 1D434-1D44D 1D468-1D481 1D49C-1D49E*2 1D49F 1D4A2 1D4A5-1D4A6 1D4A9-1D4AC",
  "1D4AE-1D4B5 1D4D0-1D4E9 1D504-1D505 1D507-1D50A 1D50D-1D514 1D516-1D51C 1D538-1D539",
  "1D53B-1D53E 1D540-1D544 1D546 1D54A-1D550 1D56C-1D585 1D5A0-1D5B9 1D5D4-1D5ED 1D608-1D621",
  "1D63C-1D655 1D670-1D689 1D6A8-1D6C0 1D6E2-1D6FA 1D71C-1D734 1D756-1D76E 1D790-1D7A8 1D7CA",
  "1E900-1E921 1F130-1F149 1F150-1F169 1F170-1F189"]

/-- The letters that have case. -/
def casedRanges : Array Range := Range.table [
  "41-19 7-19 30 B 5 6-16 2-1E 2-C2 2-3 5-CF 2-23 8-1 1F-4 61 2B-3 3-1 3-3 2 7 2-2 2 2-13 2-52",
  "2-8A 9-A5 2-25 A-28 B18-25 2 6 3-2A 3-2 2A1-55 3-5 883-8 8-2A 3-2 41-BF 41-115 3-5 3-25 3-5",
  "3-7 2 2 2 2-1E 3-34 2-6 2 4-2 2-6 4-3 3-5 5-C 6-2 2-6 75 E 11-C 66 5 3-9 2 4-4 7 2 2 2-3 2-5 5",
  "3-3 6-4 5 12-1F 4-1 332-33 717-E4 7-3 4-1 D-25 2 6 7913-2D 13-1D 85-65 4-3 2-3A 6-1 2 2-4 1C-1",
  "2-2 336-2A 2-C 8-4F 4F41-6 D-4 40A-19 7-19 4A6-4F 61-23 5-23 75-A 2-E 2-6 2-1 2-A 2-E 2-6 2-1",
  "1C4 3-2 2-29 2-8 4C6-32 E-32 BAE-3F 5561-3F 6581-54 2-46 2-1 3 3-1 3-3 2-B 2 2-6 2-40 2-3 3-7",
  "2-6 2-1B 2-3 2-4 2 4-6 2-153 3-18 2-18 2-1E 2-18 2-1E 2-18 2-1E 2-18 2-1E 2-18 2-7 735-9 2-13",
  "9E2-43 7ED-19 7-19 7-19"]

/-- The characters that are passed over when a cased letter is looked for. -/
def passedOverRanges : Array Range := Range.table [
  "27 7 C 24 2 48 5 2 5 3-1 1F8-BF 5-1 5 A-1 2 FC-6 D0 6 32-2C 2 2-1 2-1 2 2D C-5 B-A 2 24 B-14",
  "11 66-7 2-9 2-3 22 2 1F-1A 5C-A 3B-A 5 3 19-17 2C-2 2D 8-1 7-7 2A-39 38 2 5-7 5 4-6 B-1 E 10",
  "3B 5-3 9 15-1 1B 3-1 3A 5-1 5-1 3-2 4 1F-1 4 C-1 3A 5-4 2-1 5 15-1 17-5 2 3B 3 2-3 9 8-1 C-1",
  "1F 3E D 33 4 38 2-2 6-2 2-3 8-1 C-1 1E 3B 3 7 6-1 15-1 1D-1 3A-1 5-3 9 15-1 1E 49 8-2 2 5B 3-6",
  "C-8 63 3-8 A 2-5 4B-1 1C 2 2 38-D 2-4 2-1 6-A 2-23 A 67-3 2-5 2-1 3-1 1A-1 5-2 11-3 E 3-1 7 10",
  "5F 261-2 3B3-2 1E-1 1F-1 1F-1 41-1 2-6 9 3-A 4 6 2E-4 34 42-1 23 77-2 5-1 A 7-2 DC-1 3 3B 2-6",
  "2 2 3-7 7-9 3 28 9-1E 32-3 31 2-4 2 6 29-8 D-1 21-3 3-1 2-2 39 2-1 4 2-2 3B-7 3-1 41-5 53-2",
  "2-C 2-6 5 7 4-1 33-3E E 23-64 1BE 2-2 C-2 E-2 E-2 E-1 D-4 9-1 B 3 3-4 32-4 2-9 2 E 11-C 34-20",
  "B8C-1 72-2 7E 10 61-1F 30 1D6 25-3 4-4 6 5E-5 5E-2 6F17 4E3-5 10F 63-3 2-9 2 1D-3 51-1 F-21 4F",
  "18-2 68-2 4-1 9 4 5 1A-1 6 98-1 1B-11 E 27-7 1A-A 2F-2 31 3-3 3-1 12 16-1 43-5 3-1 3-1 D 9 24",
  "C 34 2-2 3-1 6-1 2 1C F-1 6-1 2 65-4 A-2 7A 3 5 4F31 94-10 23E-F 4 D-F 23 3 AA 8 7 C 24 2 30",
  "2E-1 44 16-2 202 E3 96-4 406-5 2-29 2-8 247-2 2-1 6-3 29-2 5 A6-1 23E-3 184-1 9A-A 32-3 7C",
  "37-E 2A 3-1 B-2 32-3 3-1 3 5 B 33-2 25-4 2-7 3F D-1 35-8 B-3 3 60-2 3 2-1 7 A1 4-7 16-1 3A-1 4",
  "26-6 4-4 C4-7 3-2 2 18 55-5 2 5-1 2-1 EF-3 7-1 2-1 1C-1 56-7 3 2-1 6B 2 3-5 2 66-2 3-3 2-4",
  "104-8 2-1 101-1 2 5 91-3 3-1 5 21-9 29-5 3-3 9 A-5 3-2 2F-C 2-1 197-6 2-5 2 53-15 3-6 2-1 2-1",
  "7B-5 4 2-1 2-6 2 49-1 4 2 15C-1 153C-8 36B8-4 3C-6 A-3 40C 40-10 41-1 2-1 400C-3 2-6 2-1 C9F-1",
  "2-3 125D-2D 3-16 221-2 A-F 3-6 1F-3 95-2 7BC-36 5-31 9 F 17-4 2-E 551-6 2-10 3-6 2-1 2-4 106-D",
  "171 3E-3 5E1-6 6E-7 AB0-4 C0C02 1F-5F 81-EF"]

end CallTree.Text.CaseTable
