import TemplateBundle.Text.CharacterClass
import TemplateBundle.Text.WritingSystem

/-!
# Character properties by name

The sets of characters that a pattern can name: general categories and their groups, writing
systems, and properties that a character has or lacks. Names are compared in lower case, without
separators and without a leading `is`.
-/

namespace TemplateBundle.Regex

open TemplateBundle.Text

/-- A set of characters that has a name. -/
inductive Property where
  | anything
  | ascii
  | assigned
  | unassigned
  | other
  | nothing
  | categories (members : List Category)
  | writing (name : String)
  | alphabetic
  | lowercase
  | uppercase
  | white
  | word
  | identifierStart
  | identifierPart
  | hexDigit
  | asciiHexDigit
  | joinControl
  | listed (name : String)
  deriving DecidableEq, Repr

namespace Property

/-- Properties that are kept as tables of their own. -/
def tables : List (String × CodePointSet) :=
  [("math", CodePointSet.ofTable
      "002B 003C-003E 005E 007C 007E 00AC 00B1 00D7 00F7 03D0-03D2 03D5 03F0-03F1 03F4-03F6
       0606-0608 2016 2032-2034 2040 2044 2052 2061-2064 207A-207E 208A-208E 20D0-20DC 20E1
       20E5-20E6 20EB-20EF 2102 2107 210A-2113 2115 2118-211D 2124 2128-2129 212C-212D 212F-2131
       2133-2138 213C-2149 214B 2190-21A7 21A9-21AE 21B0-21B1 21B6-21B7 21BC-21DB 21DD 21E4-21E5
       21F4-22FF 2308-230B 2320-2321 237C 239B-23B5 23B7 23D0 23DC-23E2 25A0-25A1 25AE-25B7
       25BC-25C1 25C6-25C7 25CA-25CB 25CF-25D3 25E2 25E4 25E7-25EC 25F8-25FF 2605-2606 2640 2642
       2660-2663 266D-266F 27C0-27FF 2900-2AFF 2B30-2B44 2B47-2B4C FB29 FE61-FE66 FE68 FF0B
       FF1C-FF1E FF3C FF3E FF5C FF5E FFE2 FFE9-FFEC 10D8E-10D8F 1CEF0 1D400-1D454 1D456-1D49C
       1D49E-1D49F 1D4A2 1D4A5-1D4A6 1D4A9-1D4AC 1D4AE-1D4B9 1D4BB 1D4BD-1D4C3 1D4C5-1D505
       1D507-1D50A 1D50D-1D514 1D516-1D51C 1D51E-1D539 1D53B-1D53E 1D540-1D544 1D546 1D54A-1D550
       1D552-1D6A5 1D6A8-1D7CB 1D7CE-1D7FF 1EE00-1EE03 1EE05-1EE1F 1EE21-1EE22 1EE24 1EE27
       1EE29-1EE32 1EE34-1EE37 1EE39 1EE3B 1EE42 1EE47-1EE4B/2 1EE4D-1EE4F 1EE51-1EE52 1EE54
       1EE57-1EE5F/2 1EE61-1EE62 1EE64 1EE67-1EE6A 1EE6C-1EE72 1EE74-1EE77 1EE79-1EE7C 1EE7E
       1EE80-1EE89 1EE8B-1EE9B 1EEA1-1EEA3 1EEA5-1EEA9 1EEAB-1EEBB 1EEF0-1EEF1 1F8D0-1F8D8"),
   ("dash", CodePointSet.ofTable
      "002D 058A 05BE 1400 1806 2010-2015 2053 207B 208B 2212 2E17 2E1A 2E3A-2E3B 2E40 2E5D 301C
       3030 30A0 FE31-FE32 FE58 FE63 FF0D 10D6E 10EAD"),
   ("emoji", CodePointSet.ofTable
      "0023 002A 0030-0039 00A9 00AE 203C 2049 2122 2139 2194-2199 21A9-21AA 231A-231B 2328 23CF
       23E9-23F3 23F8-23FA 24C2 25AA-25AB 25B6 25C0 25FB-25FE 2600-2604 260E 2611 2614-2615 2618
       261D 2620 2622-2623 2626 262A 262E-262F 2638-263A 2640 2642 2648-2653 265F-2660 2663
       2665-2666 2668 267B 267E-267F 2692-2697 2699 269B-269C 26A0-26A1 26A7 26AA-26AB 26B0-26B1
       26BD-26BE 26C4-26C5 26C8 26CE-26CF 26D1 26D3-26D4 26E9-26EA 26F0-26F5 26F7-26FA 26FD 2702
       2705 2708-270D 270F 2712-2716/2 271D 2721 2728 2733-2734 2744 2747 274C 274E 2753-2755
       2757 2763-2764 2795-2797 27A1 27B0 27BF 2934-2935 2B05-2B07 2B1B-2B1C 2B50 2B55 3030 303D
       3297 3299 1F004 1F0CF 1F170-1F171 1F17E-1F17F 1F18E 1F191-1F19A 1F1E6-1F1FF 1F201-1F202
       1F21A 1F22F 1F232-1F23A 1F250-1F251 1F300-1F321 1F324-1F393 1F396-1F397 1F399-1F39B
       1F39E-1F3F0 1F3F3-1F3F5 1F3F7-1F4FD 1F4FF-1F53D 1F549-1F54E 1F550-1F567 1F56F-1F570
       1F573-1F57A 1F587 1F58A-1F58D 1F590 1F595-1F596 1F5A4-1F5A5 1F5A8 1F5B1-1F5B2 1F5BC
       1F5C2-1F5C4 1F5D1-1F5D3 1F5DC-1F5DE 1F5E1 1F5E3 1F5E8 1F5EF 1F5F3 1F5FA-1F64F 1F680-1F6C5
       1F6CB-1F6D2 1F6D5-1F6D8 1F6DC-1F6E5 1F6E9 1F6EB-1F6EC 1F6F0 1F6F3-1F6FC 1F7E0-1F7EB 1F7F0
       1F90C-1F93A 1F93C-1F945 1F947-1F9FF 1FA70-1FA7C 1FA80-1FA8A 1FA8E-1FAC6 1FAC8 1FACD-1FADC
       1FADF-1FAEA 1FAEF-1FAF8"),
   ("emojipresentation", CodePointSet.ofTable
      "231A-231B 23E9-23EC 23F0 23F3 25FD-25FE 2614-2615 2648-2653 267F 2693 26A1 26AA-26AB
       26BD-26BE 26C4-26C5 26CE 26D4 26EA 26F2-26F3 26F5 26FA 26FD 2705 270A-270B 2728 274C 274E
       2753-2755 2757 2795-2797 27B0 27BF 2B1B-2B1C 2B50 2B55 1F004 1F0CF 1F18E 1F191-1F19A
       1F1E6-1F1FF 1F201 1F21A 1F22F 1F232-1F236 1F238-1F23A 1F250-1F251 1F300-1F320 1F32D-1F335
       1F337-1F37C 1F37E-1F393 1F3A0-1F3CA 1F3CF-1F3D3 1F3E0-1F3F0 1F3F4 1F3F8-1F43E 1F440
       1F442-1F4FC 1F4FF-1F53D 1F54B-1F54E 1F550-1F567 1F57A 1F595-1F596 1F5A4 1F5FB-1F64F
       1F680-1F6C5 1F6CC 1F6D0-1F6D2 1F6D5-1F6D8 1F6DC-1F6DF 1F6EB-1F6EC 1F6F4-1F6FC 1F7E0-1F7EB
       1F7F0 1F90C-1F93A 1F93C-1F945 1F947-1F9FF 1FA70-1FA7C 1FA80-1FA8A 1FA8E-1FAC6 1FAC8
       1FACD-1FADC 1FADF-1FAEA 1FAEF-1FAF8"),
   ("extendedpictographic", CodePointSet.ofTable
      "00A9 00AE 203C 2049 2122 2139 2194-2199 21A9-21AA 231A-231B 2328 23CF 23E9-23F3 23F8-23FA
       24C2 25AA-25AB 25B6 25C0 25FB-25FE 2600-2604 260E 2611 2614-2615 2618 261D 2620 2622-2623
       2626 262A 262E-262F 2638-263A 2640 2642 2648-2653 265F-2660 2663 2665-2666 2668 267B
       267E-267F 2692-2697 2699 269B-269C 26A0-26A1 26A7 26AA-26AB 26B0-26B1 26BD-26BE 26C4-26C5
       26C8 26CE-26CF 26D1 26D3-26D4 26E9-26EA 26F0-26F5 26F7-26FA 26FD 2702 2705 2708-270D 270F
       2712-2716/2 271D 2721 2728 2733-2734 2744 2747 274C 274E 2753-2755 2757 2763-2764
       2795-2797 27A1 27B0 27BF 2934-2935 2B05-2B07 2B1B-2B1C 2B50 2B55 3030 303D 3297 3299
       1F004 1F02C-1F02F 1F094-1F09F 1F0AF-1F0B0 1F0C0 1F0CF-1F0D0 1F0F6-1F0FF 1F170-1F171
       1F17E-1F17F 1F18E 1F191-1F19A 1F1AE-1F1E5 1F201-1F20F 1F21A 1F22F 1F232-1F23A 1F23C-1F23F
       1F249-1F25F 1F266-1F321 1F324-1F393 1F396-1F397 1F399-1F39B 1F39E-1F3F0 1F3F3-1F3F5
       1F3F7-1F3FA 1F400-1F4FD 1F4FF-1F53D 1F549-1F54E 1F550-1F567 1F56F-1F570 1F573-1F57A 1F587
       1F58A-1F58D 1F590 1F595-1F596 1F5A4-1F5A5 1F5A8 1F5B1-1F5B2 1F5BC 1F5C2-1F5C4 1F5D1-1F5D3
       1F5DC-1F5DE 1F5E1 1F5E3 1F5E8 1F5EF 1F5F3 1F5FA-1F64F 1F680-1F6C5 1F6CB-1F6D2 1F6D5-1F6E5
       1F6E9 1F6EB-1F6F0 1F6F3-1F6FF 1F7DA-1F7FF 1F80C-1F80F 1F848-1F84F 1F85A-1F85F 1F888-1F88F
       1F8AE-1F8AF 1F8BC-1F8BF 1F8C2-1F8CF 1F8D9-1F8FF 1F90C-1F93A 1F93C-1F945 1F947-1F9FF
       1FA58-1FA5F 1FA6E-1FAFF 1FC00-1FFFD"),
   ("ideographic", CodePointSet.ofTable
      "3006-3007 3021-3029 3038-303A 3400-4DBF 4E00-9FFF F900-FA6D FA70-FAD9 16FE4 16FF2-16FF6
       17000-18CD5 18CFF-18D1E 18D80-18DF2 1B170-1B2FB 20000-2A6DF 2A700-2B81D 2B820-2CEAD
       2CEB0-2EBE0 2EBF0-2EE5D 2F800-2FA1D 30000-3134A 31350-33479"),
   ("unifiedideograph", CodePointSet.ofTable
      "3400-4DBF 4E00-9FFF FA0E-FA0F FA11 FA13-FA14 FA1F FA21 FA23-FA24 FA27-FA29 20000-2A6DF
       2A700-2B81D 2B820-2CEAD 2CEB0-2EBE0 2EBF0-2EE5D 30000-3134A 31350-33479"),
   ("diacritic", CodePointSet.ofTable
      "005E 0060 00A8 00AF 00B4 00B7-00B8 02B0-034E 0350-0357 035D-0362 0374-0375 037A 0384-0385
       0483-0487 0559 0591-05BD 05BF 05C1-05C2 05C4-05C5 05C7 064B-0652 0657-0658 06DF-06E0
       06E5-06E6 06EA-06EC 0730-074A 07A6-07B0 07EB-07F5 0818-0819 0898-089F 08C9-08D2 08E3-08FE
       093C 094D 0951-0954 0971 09BC 09CD 0A3C 0A4D 0ABC 0ACD 0AFD-0AFF 0B3C 0B4D 0B55 0BCD 0C3C
       0C4D 0CBC 0CCD 0D3B-0D3C 0D4D 0DCA 0E3A 0E47-0E4C 0E4E 0EBA 0EC8-0ECC 0F18-0F19
       0F35-0F39/2 0F3E-0F3F 0F82-0F84 0F86-0F87 0FC6 1037 1039-103A 1063-1064 1069-106D
       1087-108D 108F 109A-109B 135D-135F 1714-1715 1734 17C9-17D3 17DD 1939-193B 1A60 1A75-1A7C
       1A7F 1AB0-1ABE 1AC1-1ACB 1ACF-1ADD 1AE0-1AEB 1B34 1B44 1B6B-1B73 1BAA-1BAB 1BE6 1BF2-1BF3
       1C36-1C37 1C78-1C7D 1CD0-1CE8 1CED 1CF4 1CF7-1CF9 1D2C-1D6A 1D9B-1DBE 1DC4-1DCF 1DF5-1DFF
       1FBD 1FBF-1FC1 1FCD-1FCF 1FDD-1FDF 1FED-1FEF 1FFD-1FFE 2CEF-2CF1 2E2F 302A-302F 3099-309C
       30FC A66F A67C-A67D A67F A69C-A69D A6F0-A6F1 A700-A721 A788-A78A A7F1 A7F8-A7F9 A806 A82C
       A8C4 A8E0-A8F1 A92B-A92E A953 A9B3 A9C0 A9E5 AA7B-AA7D AABF-AAC2 AAF6 AB5B-AB5F AB69-AB6B
       ABEC-ABED FB1E FE20-FE2F FF3E FF40 FF70 FF9E-FF9F FFE3 102E0 10780-10785 10787-107B0
       107B2-107BA 10A38-10A3A 10A3F 10AE5-10AE6 10D22-10D27 10D4E 10D69-10D6D 10EFA 10EFD-10EFF
       10F46-10F50 10F82-10F85 11046 11070 110B9-110BA 11133-11134 11173 111C0 111CA-111CC
       11235-11236 112E9-112EA 1133B-1133C 1134D 11366-1136C 11370-11374 113CE-113D0 113D2-113D3
       113E1-113E2 11442 11446 114C2-114C3 115BF-115C0 1163F 116B6-116B7 1172B 11839-1183A
       1193D-1193E 11943 119E0 11A34 11A47 11A99 11C3F 11D42 11D44-11D45 11D97 11DD9 11F41-11F42
       11F5A 13447-13455 1612F 16AF0-16AF4 16B30-16B36 16D6B-16D6C 16F8F-16F9F 16FF0-16FF1
       1AFF0-1AFF3 1AFF5-1AFFB 1AFFD-1AFFE 1CF00-1CF2D 1CF30-1CF46 1D167-1D169 1D16D-1D172
       1D17B-1D182 1D185-1D18B 1D1AA-1D1AD 1E030-1E06D 1E130-1E136 1E2AE 1E2EC-1E2EF 1E5EE-1E5EF
       1E8D0-1E8D6 1E944-1E946 1E948-1E94A"),
   ("quotationmark", CodePointSet.ofTable
      "0022 0027 00AB 00BB 2018-201F 2039-203A 2E42 300C-300F 301D-301F FE41-FE44 FF02 FF07
       FF62-FF63"),
   ("terminalpunctuation", CodePointSet.ofTable
      "0021 002C 002E 003A-003B 003F 037E 0387 0589 05C3 060C 061B 061D-061F 06D4 0700-070A 070C
       07F8-07F9 0830-0835 0837-083E 085E 0964-0965 0E5A-0E5B 0F08 0F0D-0F12 104A-104B 1361-1368
       166E 16EB-16ED 1735-1736 17D4-17D6 17DA 1802-1805 1808-1809 1944-1945 1AA8-1AAB 1B4E-1B4F
       1B5A-1B5B 1B5D-1B5F 1B7D-1B7F 1C3B-1C3F 1C7E-1C7F 2024 203C-203D 2047-2049 2CF9-2CFB 2E2E
       2E3C 2E41 2E4C 2E4E-2E4F 2E53-2E54 3001-3002 A4FE-A4FF A60D-A60F A6F3-A6F7 A876-A877
       A8CE-A8CF A92F A9C7-A9C9 AA5D-AA5F AADF AAF0-AAF1 ABEB FE12 FE15-FE16 FE50-FE52 FE54-FE57
       FF01 FF0C FF0E FF1A-FF1B FF1F FF61 FF64 1039F 103D0 10857 1091F 10A56-10A57 10AF0-10AF5
       10B3A-10B3F 10B99-10B9C 10F55-10F59 10F86-10F89 11047-1104D 110BE-110C1 11141-11143
       111C5-111C6 111CD 111DE-111DF 11238-1123C 112A9 113D4-113D5 1144B-1144D 1145A-1145B
       115C2-115C5 115C9-115D7 11641-11642 1173C-1173E 11944 11946 11A42-11A43 11A9B-11A9C
       11AA1-11AA2 11C41-11C43 11C71 11EF7-11EF8 11F43-11F44 12470-12474 16A6E-16A6F 16AF5
       16B37-16B39 16B44 16D6E-16D6F 16E97-16E98 1BC9F 1DA87-1DA8A"),
   ("sentenceterminal", CodePointSet.ofTable
      "0021 002E 003F 0589 061D-061F 06D4 0700-0702 07F9 0837 0839 083D-083E 0964-0965 104A-104B
       1362 1367-1368 166E 1735-1736 17D4-17D5 1803 1809 1944-1945 1AA8-1AAB 1B4E-1B4F 1B5A-1B5B
       1B5E-1B5F 1B7D-1B7F 1C3B-1C3C 1C7E-1C7F 2024 203C-203D 2047-2049 2CF9-2CFB 2E2E 2E3C
       2E53-2E54 3002 A4FF A60E-A60F A6F3 A6F7 A876-A877 A8CE-A8CF A92F A9C8-A9C9 AA5D-AA5F
       AAF0-AAF1 ABEB FE12 FE15-FE16 FE52 FE56-FE57 FF01 FF0E FF1F FF61 10A56-10A57 10F55-10F59
       10F86-10F89 11047-11048 110BE-110C1 11141-11143 111C5-111C6 111CD 111DE-111DF 11238-11239
       1123B-1123C 112A9 113D4-113D5 1144B-1144C 115C2-115C3 115C9-115D7 11641-11642 1173C-1173E
       11944 11946 11A42-11A43 11A9B-11A9C 11C41-11C42 11EF7-11EF8 11F43-11F44 16A6E-16A6F 16AF5
       16B37-16B38 16B44 16D6E-16D6F 16E98 1BC9F 1DA88"),
   ("defaultignorablecodepoint", CodePointSet.ofTable
      "00AD 034F 061C 115F-1160 17B4-17B5 180B-180F 200B-200F 202A-202E 2060-206F 3164 FE00-FE0F
       FEFF FFA0 FFF0-FFF8 1BCA0-1BCA3 1D173-1D17A E0000-E0FFF"),
   ("patternwhitespace", CodePointSet.ofTable
      "0009-000D 0020 0085 200E-200F 2028-2029"),
   ("patternsyntax", CodePointSet.ofTable
      "0021-002F 003A-0040 005B-005E 0060 007B-007E 00A1-00A7 00A9 00AB-00AC 00AE 00B0-00B1 00B6
       00BB 00BF 00D7 00F7 2010-2027 2030-203E 2041-2053 2055-205E 2190-245F 2500-2775 2794-2BFF
       2E00-2E7F 3001-3003 3008-3020 3030 FD3E-FD3F FE45-FE46"),
   ("softdotted", CodePointSet.ofTable
      "0069-006A 012F 0249 0268 029D 02B2 03F3 0456 0458 1D62 1D96 1DA4 1DA8 1E2D 1ECB 2071
       2148-2149 2C7C 1D422-1D423 1D456-1D457 1D48A-1D48B 1D4BE-1D4BF 1D4F2-1D4F3 1D526-1D527
       1D55A-1D55B 1D58E-1D58F 1D5C2-1D5C3 1D5F6-1D5F7 1D62A-1D62B 1D65E-1D65F 1D692-1D693 1DF1A
       1E04C-1E04D 1E068")]

/-- The hexadecimal digits, in their wide forms too. -/
def isHexDigit (c : Char) : Bool :=
  let code := c.toNat
  (hexValue? c).isSome || (0xFF10 ≤ code && code ≤ 0xFF19) || (0xFF21 ≤ code && code ≤ 0xFF26) ||
    (0xFF41 ≤ code && code ≤ 0xFF46)

/-- The character has the property. -/
def has (property : Property) (c : Char) : Bool :=
  match property with
  | .anything => true
  | .ascii => c.toNat < 0x80
  | .assigned => !Category.isUnassigned c
  | .unassigned => Category.isUnassigned c
  | .other => Category.isUnassigned c || Category.hasAny [.control, .format, .privateUse] c
  | .nothing => false
  | .categories members => Category.hasAny members c
  | .writing name =>
      match WritingSystem.named? name with
      | some system => system.characters.contains c
      | none => false
  | .alphabetic => isAlphabetic c
  | .lowercase => isLowercase c
  | .uppercase => isUppercase c
  | .white => isWhite c
  | .word => isWord c
  | .identifierStart => isIdentifierStart c
  | .identifierPart => isIdentifierPart c
  | .hexDigit => isHexDigit c
  | .asciiHexDigit => (hexValue? c).isSome
  | .joinControl => c.toNat == 0x200C || c.toNat == 0x200D
  | .listed name =>
      match tables.lookup name with
      | some table => table.contains c
      | none => false

/-- A name as it is compared. -/
def comparable (name : String) : String :=
  let letters := name.toList.filterMap fun c =>
    if c == ' ' || c == '_' || c == '-' || 0x80 ≤ c.toNat then none else some c.toLower
  match letters with
  | 'i' :: 's' :: rest => if rest == ['c'] then "isc" else String.ofList rest
  | _ => String.ofList letters

/-- General categories and their groups by comparable name. -/
def categoryNames : List (List String × Property) :=
  [(["any"], .anything), (["ascii"], .ascii), (["assigned"], .assigned),
   (["cn", "unassigned"], .unassigned), (["cs", "surrogate"], .nothing),
   (["c", "other"], .other),
   (["lu", "uppercaseletter"], .categories [.uppercaseLetter]),
   (["ll", "lowercaseletter"], .categories [.lowercaseLetter]),
   (["lt", "titlecaseletter"], .categories [.titlecaseLetter]),
   (["lc", "casedletter"],
     .categories [.uppercaseLetter, .lowercaseLetter, .titlecaseLetter]),
   (["lm", "modifierletter"], .categories [.modifierLetter]),
   (["lo", "otherletter"], .categories [.otherLetter]),
   (["l", "letter"], .categories Category.letters),
   (["mn", "nonspacingmark"], .categories [.nonspacingMark]),
   (["mc", "spacingmark"], .categories [.spacingMark]),
   (["me", "enclosingmark"], .categories [.enclosingMark]),
   (["m", "mark", "combiningmark"], .categories Category.marks),
   (["nd", "decimalnumber", "digit"], .categories [.decimalNumber]),
   (["nl", "letternumber"], .categories [.letterNumber]),
   (["no", "othernumber"], .categories [.otherNumber]),
   (["n", "number"], .categories Category.numbers),
   (["pc", "connectorpunctuation"], .categories [.connectorPunctuation]),
   (["pd", "dashpunctuation"], .categories [.dashPunctuation]),
   (["ps", "openpunctuation"], .categories [.openPunctuation]),
   (["pe", "closepunctuation"], .categories [.closePunctuation]),
   (["pi", "initialpunctuation"], .categories [.initialPunctuation]),
   (["pf", "finalpunctuation"], .categories [.finalPunctuation]),
   (["po", "otherpunctuation"], .categories [.otherPunctuation]),
   (["p", "punctuation", "punct"], .categories Category.punctuation),
   (["sm", "mathsymbol"], .categories [.mathSymbol]),
   (["sc", "currencysymbol"], .categories [.currencySymbol]),
   (["sk", "modifiersymbol"], .categories [.modifierSymbol]),
   (["so", "othersymbol"], .categories [.otherSymbol]),
   (["s", "symbol"], .categories Category.symbols),
   (["zs", "spaceseparator"], .categories [.spaceSeparator]),
   (["zl", "lineseparator"], .categories [.lineSeparator]),
   (["zp", "paragraphseparator"], .categories [.paragraphSeparator]),
   (["z", "separator"], .categories Category.separators),
   (["cc", "control", "cntrl"], .categories [.control]),
   (["cf", "format"], .categories [.format]),
   (["co", "privateuse"], .categories [.privateUse])]

/-- Properties that a character has or lacks, by comparable name. -/
def binaryNames : List (List String × Property) :=
  [(["alphabetic", "alpha"], .alphabetic), (["lowercase", "lower"], .lowercase),
   (["uppercase", "upper"], .uppercase), (["whitespace", "wspace", "space"], .white),
   (["idstart", "ids"], .identifierStart), (["idcontinue", "idc"], .identifierPart),
   (["hexdigit", "hex"], .hexDigit), (["asciihexdigit", "ahex"], .asciiHexDigit),
   (["joincontrol", "joinc"], .joinControl), (["math"], .listed "math"),
   (["dash"], .listed "dash"), (["emoji"], .listed "emoji"),
   (["emojipresentation", "epres"], .listed "emojipresentation"),
   (["extendedpictographic", "extpict"], .listed "extendedpictographic"),
   (["ideographic", "ideo"], .listed "ideographic"),
   (["unifiedideograph", "uideo"], .listed "unifiedideograph"),
   (["diacritic", "dia"], .listed "diacritic"),
   (["quotationmark", "qmark"], .listed "quotationmark"),
   (["terminalpunctuation", "term"], .listed "terminalpunctuation"),
   (["sentenceterminal", "sterm"], .listed "sentenceterminal"),
   (["defaultignorablecodepoint", "di"], .listed "defaultignorablecodepoint"),
   (["patternwhitespace", "patws"], .listed "patternwhitespace"),
   (["patternsyntax", "patsyn"], .listed "patternsyntax"),
   (["softdotted", "sd"], .listed "softdotted")]

/-- Look up a comparable name. -/
def find? (names : List (List String × Property)) (name : String) : Option Property :=
  (names.find? fun entry => entry.1.contains name).map Prod.snd

/-- The general category or group with a comparable name. -/
def category? (name : String) : Option Property :=
  find? categoryNames name

/-- The writing system with a comparable name. -/
def writing? (name : String) : Option Property :=
  if (WritingSystem.named? name).isSome then some (.writing name) else none

/-- The set that a name alone stands for. -/
def ofName? (written : String) : Option Property :=
  let name := comparable written
  let isCategory := name == "cf" || name == "sc" || name == "lc"
  let binary := if isCategory then none else find? binaryNames name
  binary <|> category? name <|> writing? name

/-- The set that a name with a value stands for. -/
def ofNameValue? (written value : String) : Option Property :=
  let name := comparable written
  if name == "gc" || name == "generalcategory" then category? (comparable value)
  else if name == "sc" || name == "script" || name == "scx" || name == "scriptextensions" then
    writing? (comparable value)
  else none

end Property

end TemplateBundle.Regex
