import TemplateBundle.Text.CodePoints

/-!
# Letter case

Characters that differ in case only, by the simple case folding of the character database: one
character folds to one character. The table gives for runs of characters the one with the lowest
code point among their case variants.
-/

namespace TemplateBundle.Text

/-- A run of characters and the case variant of its first one. -/
structure FoldRun where
  run : CodePointRun
  target : Nat
  deriving Repr, Inhabited

namespace FoldRun

/-- Read one run as written in the table. -/
def ofWritten (written : List Char) : FoldRun :=
  match written.splitOn '=' with
  | [run, target] => { run := CodePointRun.ofWritten run, target := hexNumber target }
  | _ => default

/-- What a code point of the run folds to. -/
def fold? (fold : FoldRun) (code : Nat) : Option Nat :=
  if fold.run.contains code then some (fold.target + (code - fold.run.first)) else none

/-- The code point of the run that folds to the given one. -/
def source? (fold : FoldRun) (code : Nat) : Option Nat :=
  if code < fold.target then none
  else
    let source := fold.run.first + (code - fold.target)
    if fold.run.contains source then some source else none

end FoldRun

/-- The table of simple case folding. -/
def foldRuns : List FoldRun :=
  (tableEntries
    "0061-007A=0041 00E0-00F6=00C0 00F8-00FE=00D8 0101-012F/2=0100 0133-0137/2=0132
      013A-0148/2=0139 014B-0177/2=014A 0178=00FF 017A-017E/2=0179 017F=0053 0183-0185/2=0182
      0188=0187 018C=018B 0192=0191 0199=0198 01A1-01A5/2=01A0 01A8=01A7 01AD=01AC 01B0=01AF
      01B4-01B6/2=01B3 01B9=01B8 01BD=01BC 01C5=01C4 01C6=01C4 01C8=01C7 01C9=01C7 01CB=01CA
      01CC=01CA 01CE-01DC/2=01CD 01DD=018E 01DF-01EF/2=01DE 01F2=01F1 01F3=01F1 01F5=01F4
      01F6=0195 01F7=01BF 01F9-021F/2=01F8 0220=019E 0223-0233/2=0222 023C=023B 023D=019A
      0242=0241 0243=0180 0247-024F/2=0246 0253=0181 0254=0186 0256-0257=0189 0259=018F
      025B=0190 0260=0193 0263=0194 0268=0197 0269=0196 026F=019C 0272=019D 0275=019F 0280=01A6
      0283=01A9 0288=01AE 0289=0244 028A-028B=01B1 028C=0245 0292=01B7 0371-0373/2=0370
      0377=0376 0399=0345 039C=00B5 03AC=0386 03AD-03AF=0388 03B1-03B8=0391 03B9=0345
      03BA-03BB=039A 03BC=00B5 03BD-03C1=039D 03C2=03A3 03C3-03CB=03A3 03CC=038C 03CD-03CE=038E
      03D0=0392 03D1=0398 03D5=03A6 03D6=03A0 03D7=03CF 03D9-03EF/2=03D8 03F0=039A 03F1=03A1
      03F3=037F 03F4=0398 03F5=0395 03F8=03F7 03F9=03F2 03FB=03FA 03FD-03FF=037B 0430-044F=0410
      0450-045F=0400 0461-0481/2=0460 048B-04BF/2=048A 04C2-04CE/2=04C1 04CF=04C0
      04D1-052F/2=04D0 0561-0586=0531 13F8-13FD=13F0 1C80=0412 1C81=0414 1C82=041E
      1C83-1C84=0421 1C85=0422 1C86=042A 1C87=0462 1C8A=1C89 1C90-1CBA=10D0 1CBD-1CBF=10FD
      1E01-1E95/2=1E00 1E9B=1E60 1E9E=00DF 1EA1-1EFF/2=1EA0 1F08-1F0F=1F00 1F18-1F1D=1F10
      1F28-1F2F=1F20 1F38-1F3F=1F30 1F48-1F4D=1F40 1F59-1F5F/2=1F51 1F68-1F6F=1F60
      1F88-1F8F=1F80 1F98-1F9F=1F90 1FA8-1FAF=1FA0 1FB8-1FB9=1FB0 1FBA-1FBB=1F70 1FBC=1FB3
      1FBE=0345 1FC8-1FCB=1F72 1FCC=1FC3 1FD3=0390 1FD8-1FD9=1FD0 1FDA-1FDB=1F76 1FE3=03B0
      1FE8-1FE9=1FE0 1FEA-1FEB=1F7A 1FEC=1FE5 1FF8-1FF9=1F78 1FFA-1FFB=1F7C 1FFC=1FF3 2126=03A9
      212A=004B 212B=00C5 214E=2132 2170-217F=2160 2184=2183 24D0-24E9=24B6 2C30-2C5F=2C00
      2C61=2C60 2C62=026B 2C63=1D7D 2C64=027D 2C65=023A 2C66=023E 2C68-2C6C/2=2C67 2C6D=0251
      2C6E=0271 2C6F=0250 2C70=0252 2C73=2C72 2C76=2C75 2C7E-2C7F=023F 2C81-2CE3/2=2C80
      2CEC-2CEE/2=2CEB 2CF3=2CF2 2D00-2D25=10A0 2D27=10C7 2D2D=10CD A641-A649/2=A640 A64A=1C88
      A64B=1C88 A64D-A66D/2=A64C A681-A69B/2=A680 A723-A72F/2=A722 A733-A76F/2=A732
      A77A-A77C/2=A779 A77D=1D79 A77F-A787/2=A77E A78C=A78B A78D=0265 A791-A793/2=A790
      A797-A7A9/2=A796 A7AA=0266 A7AB=025C A7AC=0261 A7AD=026C A7AE=026A A7B0=029E A7B1=0287
      A7B2=029D A7B5-A7C3/2=A7B4 A7C4=A794 A7C5=0282 A7C6=1D8E A7C8-A7CA/2=A7C7 A7CB=0264
      A7CD-A7DB/2=A7CC A7DC=019B A7F6=A7F5 AB53=A7B3 AB70-ABBF=13A0 FB06=FB05 FF41-FF5A=FF21
      10428-1044F=10400 104D8-104FB=104B0 10597-105A1=10570 105A3-105B1=1057C 105B3-105B9=1058C
      105BB-105BC=10594 10CC0-10CF2=10C80 10D70-10D85=10D50 118C0-118DF=118A0 16E60-16E7F=16E40
      16EBB-16ED3=16EA0 1E922-1E943=1E900").map FoldRun.ofWritten

/-- The case variant of the character with the lowest code point. -/
def foldCase (c : Char) : Char :=
  ((foldRuns.findSome? fun fold => fold.fold? c.toNat).map Char.ofNat).getD c

/-- All characters that differ from the character in case only, itself included. -/
def caseVariants (c : Char) : List Char :=
  let lowest := foldCase c
  lowest :: foldRuns.filterMap fun fold => (fold.source? lowest.toNat).map Char.ofNat

end TemplateBundle.Text
