import OpenApi.Text.Runs

/-
Characters by their script, for the scripts that have signs of their own.
-/
namespace OpenApi.Text

def greekRuns : List Nat :=
  [
   880, 884, 885, 894, 895, 901, 902, 903, 904, 994, 1008, 1024, 7462, 7467, 7517, 7522, 7526,
   7531, 7615, 7616, 7936, 8192, 8486, 8487, 43877, 43878, 65856, 65936, 65952, 66000, 119296,
   119520]

def hebrewRuns : List Nat :=
  [
   1425, 1536, 64285, 64336]

def eastAsianRuns : List Nat :=
  [
   11904, 12272, 12293, 12294, 12295, 12296, 12321, 12330, 12344, 12348, 12353, 12441, 12445,
   12448, 12449, 12539, 12541, 12549, 12784, 12800, 13008, 13055, 13056, 13144, 13312, 19904,
   19968, 40960, 63744, 64256, 65382, 65392, 65393, 65438, 94178, 94180, 94192, 94208, 110576,
   110960, 127488, 127489, 131072, 917505]

def isGreek (c : Char) : Bool := inRuns greekRuns c.toNat

def isHebrew (c : Char) : Bool := inRuns hebrewRuns c.toNat

def isEastAsian (c : Char) : Bool := inRuns eastAsianRuns c.toNat

end OpenApi.Text
