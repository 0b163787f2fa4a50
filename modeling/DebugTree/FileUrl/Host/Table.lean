import DebugTree.Text.CodeRange

/-!
# Compatibility letters of host names, the data

A host name is written in many alphabets of presentation: full width, mathematical, circled.
Those code points that stand for one plain letter, digit, dot or hyphen are packed into runs; those
that a host name ignores are intervals.
-/

namespace DebugTree
namespace FileUrl

open Text

/-- Part 1 of `plainRuns`. -/
def plainRuns1 : List CaseRun := [
  ⟨0xAA, 0xAA, 1, -73⟩, ⟨0xB2, 0xB3, 1, -128⟩, ⟨0xB9, 0xB9, 1, -136⟩, ⟨0xBA, 0xBA, 1, -75⟩,
  ⟨0x17F, 0x17F, 1, -268⟩, ⟨0x2B0, 0x2B2, 2, -584⟩, ⟨0x2B3, 0x2B3, 1, -577⟩,
  ⟨0x2B7, 0x2B7, 1, -576⟩, ⟨0x2B8, 0x2B8, 1, -575⟩, ⟨0x2E1, 0x2E1, 1, -629⟩,
  ⟨0x2E2, 0x2E2, 1, -623⟩, ⟨0x2E3, 0x2E3, 1, -619⟩, ⟨0x1D2C, 0x1D2C, 1, -7371⟩,
  ⟨0x1D2E, 0x1D30, 2, -7372⟩, ⟨0x1D31, 0x1D33, 2, -7372⟩, ⟨0x1D34, 0x1D3A, 1, -7372⟩,
  ⟨0x1D3C, 0x1D3C, 1, -7373⟩, ⟨0x1D3E, 0x1D3E, 1, -7374⟩, ⟨0x1D3F, 0x1D3F, 1, -7373⟩,
  ⟨0x1D40, 0x1D41, 1, -7372⟩, ⟨0x1D42, 0x1D42, 1, -7371⟩, ⟨0x1D43, 0x1D43, 1, -7394⟩,
  ⟨0x1D47, 0x1D47, 1, -7397⟩, ⟨0x1D48, 0x1D49, 1, -7396⟩, ⟨0x1D4D, 0x1D4D, 1, -7398⟩,
  ⟨0x1D4F, 0x1D4F, 1, -7396⟩, ⟨0x1D50, 0x1D52, 2, -7395⟩, ⟨0x1D56, 0x1D56, 1, -7398⟩,
  ⟨0x1D57, 0x1D58, 1, -7395⟩, ⟨0x1D5B, 0x1D5B, 1, -7397⟩, ⟨0x1D62, 0x1D62, 1, -7417⟩,
  ⟨0x1D63, 0x1D63, 1, -7409⟩, ⟨0x1D64, 0x1D65, 1, -7407⟩, ⟨0x1D9C, 0x1D9C, 1, -7481⟩,
  ⟨0x1DA0, 0x1DA0, 1, -7482⟩, ⟨0x1DBB, 0x1DBB, 1, -7489⟩, ⟨0x2024, 0x2024, 1, -8182⟩,
  ⟨0x2070, 0x2070, 1, -8256⟩, ⟨0x2071, 0x2071, 1, -8200⟩, ⟨0x2074, 0x2079, 1, -8256⟩,
  ⟨0x207F, 0x207F, 1, -8209⟩, ⟨0x2080, 0x2089, 1, -8272⟩, ⟨0x2090, 0x2090, 1, -8239⟩,
  ⟨0x2091, 0x2091, 1, -8236⟩, ⟨0x2092, 0x2092, 1, -8227⟩, ⟨0x2093, 0x2093, 1, -8219⟩,
  ⟨0x2095, 0x2095, 1, -8237⟩, ⟨0x2096, 0x2099, 1, -8235⟩, ⟨0x209A, 0x209A, 1, -8234⟩,
  ⟨0x209B, 0x209C, 1, -8232⟩, ⟨0x2102, 0x2102, 1, -8351⟩, ⟨0x210A, 0x210B, 1, -8355⟩,
  ⟨0x210C, 0x210C, 1, -8356⟩, ⟨0x210D, 0x210D, 1, -8357⟩, ⟨0x210E, 0x210E, 1, -8358⟩,
  ⟨0x2110, 0x2110, 1, -8359⟩, ⟨0x2111, 0x2111, 1, -8360⟩, ⟨0x2112, 0x2112, 1, -8358⟩,
  ⟨0x2113, 0x2115, 2, -8359⟩, ⟨0x2119, 0x211B, 1, -8361⟩, ⟨0x211C, 0x211C, 1, -8362⟩,
  ⟨0x211D, 0x211D, 1, -8363⟩, ⟨0x2124, 0x2124, 1, -8362⟩, ⟨0x2128, 0x2128, 1, -8366⟩,
  ⟨0x212A, 0x212A, 1, -8383⟩, ⟨0x212C, 0x212D, 1, -8394⟩, ⟨0x212F, 0x212F, 1, -8394⟩,
  ⟨0x2130, 0x2131, 1, -8395⟩, ⟨0x2133, 0x2133, 1, -8390⟩, ⟨0x2134, 0x2134, 1, -8389⟩,
  ⟨0x2139, 0x2139, 1, -8400⟩, ⟨0x2145, 0x2145, 1, -8417⟩, ⟨0x2146, 0x2147, 1, -8418⟩,
  ⟨0x2148, 0x2149, 1, -8415⟩, ⟨0x2160, 0x2160, 1, -8439⟩, ⟨0x2164, 0x2164, 1, -8430⟩,
  ⟨0x2169, 0x2169, 1, -8433⟩, ⟨0x216C, 0x216C, 1, -8448⟩, ⟨0x216D, 0x216E, 1, -8458⟩,
  ⟨0x216F, 0x216F, 1, -8450⟩, ⟨0x2170, 0x2170, 1, -8455⟩, ⟨0x2174, 0x2174, 1, -8446⟩,
  ⟨0x2179, 0x2179, 1, -8449⟩, ⟨0x217C, 0x217C, 1, -8464⟩, ⟨0x217D, 0x217E, 1, -8474⟩,
  ⟨0x217F, 0x217F, 1, -8466⟩, ⟨0x2460, 0x2468, 1, -9263⟩, ⟨0x24B6, 0x24CF, 1, -9301⟩,
  ⟨0x24D0, 0x24E9, 1, -9327⟩, ⟨0x24EA, 0x24EA, 1, -9402⟩, ⟨0x2C7C, 0x2C7C, 1, -11282⟩,
  ⟨0x2C7D, 0x2C7D, 1, -11271⟩, ⟨0x3002, 0x3002, 1, -12244⟩, ⟨0xA7F2, 0xA7F2, 1, -42895⟩,
  ⟨0xA7F3, 0xA7F3, 1, -42893⟩, ⟨0xA7F4, 0xA7F4, 1, -42883⟩, ⟨0xFE33, 0xFE33, 1, -64980⟩,
  ⟨0xFE34, 0xFE34, 1, -64981⟩, ⟨0xFE4D, 0xFE4D, 1, -65006⟩, ⟨0xFE4E, 0xFE4E, 1, -65007⟩,
  ⟨0xFE4F, 0xFE4F, 1, -65008⟩, ⟨0xFE52, 0xFE52, 1, -65060⟩, ⟨0xFE63, 0xFE63, 1, -65078⟩,
  ⟨0xFF0D, 0xFF0E, 1, -65248⟩, ⟨0xFF10, 0xFF19, 1, -65248⟩, ⟨0xFF21, 0xFF3A, 1, -65216⟩,
  ⟨0xFF3F, 0xFF41, 2, -65248⟩, ⟨0xFF42, 0xFF5A, 1, -65248⟩, ⟨0xFF61, 0xFF61, 1, -65331⟩,
  ⟨0x107A5, 0x107A5, 1, -67380⟩, ⟨0x1D400, 0x1D419, 1, -119711⟩,
  ⟨0x1D41A, 0x1D433, 1, -119737⟩, ⟨0x1D434, 0x1D44D, 1, -119763⟩,
  ⟨0x1D44E, 0x1D454, 1, -119789⟩, ⟨0x1D456, 0x1D467, 1, -119789⟩,
  ⟨0x1D468, 0x1D481, 1, -119815⟩, ⟨0x1D482, 0x1D49B, 1, -119841⟩,
  ⟨0x1D49C, 0x1D49E, 2, -119867⟩, ⟨0x1D49F, 0x1D49F, 1, -119867⟩, ⟨0x1D4A2, 0x1D4A2, 1, -119867⟩]

/-- Part 2 of `plainRuns`. -/
def plainRuns2 : List CaseRun := [
  ⟨0x1D4A5, 0x1D4A6, 1, -119867⟩, ⟨0x1D4A9, 0x1D4AC, 1, -119867⟩,
  ⟨0x1D4AE, 0x1D4B5, 1, -119867⟩, ⟨0x1D4B6, 0x1D4B9, 1, -119893⟩,
  ⟨0x1D4BB, 0x1D4BD, 2, -119893⟩, ⟨0x1D4BE, 0x1D4C3, 1, -119893⟩,
  ⟨0x1D4C5, 0x1D4CF, 1, -119893⟩, ⟨0x1D4D0, 0x1D4E9, 1, -119919⟩,
  ⟨0x1D4EA, 0x1D503, 1, -119945⟩, ⟨0x1D504, 0x1D505, 1, -119971⟩,
  ⟨0x1D507, 0x1D50A, 1, -119971⟩, ⟨0x1D50D, 0x1D514, 1, -119971⟩,
  ⟨0x1D516, 0x1D51C, 1, -119971⟩, ⟨0x1D51E, 0x1D537, 1, -119997⟩,
  ⟨0x1D538, 0x1D539, 1, -120023⟩, ⟨0x1D53B, 0x1D53E, 1, -120023⟩,
  ⟨0x1D540, 0x1D544, 1, -120023⟩, ⟨0x1D546, 0x1D546, 1, -120023⟩,
  ⟨0x1D54A, 0x1D550, 1, -120023⟩, ⟨0x1D552, 0x1D56B, 1, -120049⟩,
  ⟨0x1D56C, 0x1D585, 1, -120075⟩, ⟨0x1D586, 0x1D59F, 1, -120101⟩,
  ⟨0x1D5A0, 0x1D5B9, 1, -120127⟩, ⟨0x1D5BA, 0x1D5D3, 1, -120153⟩,
  ⟨0x1D5D4, 0x1D5ED, 1, -120179⟩, ⟨0x1D5EE, 0x1D607, 1, -120205⟩,
  ⟨0x1D608, 0x1D621, 1, -120231⟩, ⟨0x1D622, 0x1D63B, 1, -120257⟩,
  ⟨0x1D63C, 0x1D655, 1, -120283⟩, ⟨0x1D656, 0x1D66F, 1, -120309⟩,
  ⟨0x1D670, 0x1D689, 1, -120335⟩, ⟨0x1D68A, 0x1D6A3, 1, -120361⟩,
  ⟨0x1D7CE, 0x1D7D7, 1, -120734⟩, ⟨0x1D7D8, 0x1D7E1, 1, -120744⟩,
  ⟨0x1D7E2, 0x1D7EB, 1, -120754⟩, ⟨0x1D7EC, 0x1D7F5, 1, -120764⟩,
  ⟨0x1D7F6, 0x1D7FF, 1, -120774⟩, ⟨0x1F12B, 0x1F12B, 1, -127176⟩,
  ⟨0x1F12C, 0x1F12C, 1, -127162⟩, ⟨0x1F130, 0x1F149, 1, -127183⟩, ⟨0x1FBF0, 0x1FBF9, 1, -129984⟩]

/-- Code points that stand for one plain character of a host name. -/
def plainRuns : List CaseRun :=
  plainRuns1 ++ plainRuns2

/-- Code points that a host name ignores. -/
def ignoredRanges : List CodeRange := [
  ⟨0xAD, 0xAD⟩, ⟨0x34F, 0x34F⟩, ⟨0x180B, 0x180D⟩, ⟨0x180F, 0x180F⟩, ⟨0x200B, 0x200B⟩,
  ⟨0x2060, 0x2060⟩, ⟨0x2064, 0x2064⟩, ⟨0xFE00, 0xFE0F⟩, ⟨0xFEFF, 0xFEFF⟩, ⟨0x1BCA0, 0x1BCA3⟩,
  ⟨0xE0100, 0xE01EF⟩]

end FileUrl
end DebugTree
