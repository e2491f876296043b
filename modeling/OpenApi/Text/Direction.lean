import OpenApi.Text.Runs

/-
The directions that characters are written in, and when the characters of a word go together.

A word from right to left is written in letters of that direction.  Digits in it stay as they are,
but the two kinds of them do not mix.
-/
namespace OpenApi.Text

/-- Where the letters from right to left begin and end. -/
def rightToLeftRuns : List Nat :=
  [
   1470, 1471, 1472, 1473, 1475, 1476, 1478, 1479, 1488, 1536, 1544, 1545, 1547, 1548, 1549,
   1550, 1563, 1611, 1645, 1648, 1649, 1750, 1765, 1767, 1774, 1776, 1786, 1809, 1810, 1840,
   1869, 1958, 1969, 2027, 2036, 2038, 2042, 2045, 2046, 2070, 2074, 2075, 2084, 2085, 2088,
   2089, 2096, 2137, 2142, 2192, 2208, 2250, 8207, 8208, 64285, 64286, 64287, 64297, 64298,
   64830, 64848, 64975, 65008, 65021, 65136, 65279, 67584, 67871, 67872, 68097, 68112, 68152,
   68160, 68325, 68331, 68409, 68416, 68900, 69248, 69291, 69293, 69446, 69457, 69506, 69510,
   69632, 124928, 125136, 125184, 125252, 125259, 126704]

/-- Where the marks begin and end that go along with the letter before them. -/
def attachedRuns : List Nat :=
  [
   768, 880, 1155, 1162, 1425, 1470, 1471, 1472, 1473, 1475, 1476, 1478, 1479, 1488, 1552, 1563,
   1611, 1632, 1648, 1649, 1750, 1757, 1759, 1765, 1767, 1769, 1770, 1774, 1809, 1810, 1840,
   1869, 1958, 1969, 2027, 2036, 2045, 2046, 2070, 2074, 2075, 2084, 2085, 2088, 2089, 2096,
   2137, 2142, 2200, 2208, 2250, 2274, 2275, 2307, 2362, 2363, 2364, 2365, 2369, 2377, 2381,
   2382, 2385, 2392, 2402, 2404, 2433, 2434, 2492, 2493, 2497, 2503, 2509, 2510, 2530, 2534,
   2558, 2563, 2620, 2622, 2625, 2649, 2672, 2674, 2677, 2678, 2689, 2691, 2748, 2749, 2753,
   2761, 2765, 2768, 2786, 2790, 2810, 2818, 2876, 2877, 2879, 2880, 2881, 2887, 2893, 2903,
   2914, 2918, 2946, 2947, 3008, 3009, 3021, 3024, 3072, 3073, 3076, 3077, 3132, 3133, 3134,
   3137, 3142, 3160, 3170, 3174, 3201, 3202, 3260, 3261, 3276, 3285, 3298, 3302, 3328, 3330,
   3387, 3389, 3393, 3398, 3405, 3406, 3426, 3430, 3457, 3458, 3530, 3535, 3538, 3544, 3633,
   3634, 3636, 3647, 3655, 3663, 3761, 3762, 3764, 3773, 3784, 3792, 3864, 3866, 3893, 3894,
   3895, 3896, 3897, 3898, 3953, 3967, 3968, 3973, 3974, 3976, 3981, 4030, 4038, 4039, 4141,
   4145, 4146, 4152, 4153, 4155, 4157, 4159, 4184, 4186, 4190, 4193, 4209, 4213, 4226, 4227,
   4229, 4231, 4237, 4238, 4253, 4254, 4957, 4960, 5906, 5909, 5938, 5940, 5970, 5984, 6002,
   6016, 6068, 6070, 6071, 6078, 6086, 6087, 6089, 6100, 6109, 6112, 6155, 6158, 6159, 6160,
   6277, 6279, 6313, 6314, 6432, 6435, 6439, 6441, 6450, 6451, 6457, 6464, 6679, 6681, 6683,
   6686, 6742, 6743, 6744, 6753, 6754, 6755, 6757, 6765, 6771, 6784, 6832, 6916, 6964, 6965,
   6966, 6971, 6972, 6973, 6978, 6979, 7019, 7028, 7040, 7042, 7074, 7078, 7080, 7082, 7083,
   7086, 7142, 7143, 7144, 7146, 7149, 7150, 7151, 7154, 7212, 7220, 7222, 7227, 7376, 7379,
   7380, 7393, 7394, 7401, 7405, 7406, 7412, 7413, 7416, 7418, 7616, 7680, 8400, 8448, 11503,
   11506, 11647, 11648, 11744, 11776, 12330, 12334, 12441, 12443, 42607, 42611, 42612, 42622,
   42654, 42656, 42736, 42738, 43010, 43011, 43014, 43015, 43019, 43020, 43045, 43047, 43052,
   43056, 43204, 43214, 43232, 43250, 43263, 43264, 43302, 43310, 43335, 43346, 43392, 43395,
   43443, 43444, 43446, 43450, 43452, 43454, 43493, 43494, 43561, 43567, 43569, 43571, 43573,
   43584, 43587, 43588, 43596, 43597, 43644, 43645, 43696, 43697, 43698, 43701, 43703, 43705,
   43710, 43712, 43713, 43714, 43756, 43758, 43766, 43777, 44005, 44006, 44008, 44009, 44013,
   44016, 64286, 64287, 65024, 65040, 65056, 65072, 66045, 66176, 66272, 66273, 66422, 66432,
   68097, 68112, 68152, 68160, 68325, 68331, 68900, 68912, 69291, 69293, 69446, 69457, 69506,
   69510, 69633, 69634, 69688, 69703, 69744, 69745, 69747, 69749, 69759, 69762, 69811, 69815,
   69817, 69819, 69826, 69837, 69888, 69891, 69927, 69932, 69933, 69942, 70003, 70004, 70016,
   70018, 70070, 70079, 70089, 70093, 70095, 70096, 70191, 70194, 70196, 70197, 70198, 70200,
   70206, 70272, 70367, 70368, 70371, 70384, 70400, 70402, 70459, 70461, 70464, 70465, 70502,
   70656, 70712, 70720, 70722, 70725, 70726, 70727, 70750, 70751, 70835, 70841, 70842, 70843,
   70847, 70849, 70850, 70852, 71090, 71096, 71100, 71102, 71103, 71105, 71132, 71168, 71219,
   71227, 71229, 71230, 71231, 71233, 71339, 71340, 71341, 71342, 71344, 71350, 71351, 71352,
   71453, 71456, 71458, 71462, 71463, 71472, 71727, 71736, 71737, 71739, 71995, 71997, 71998,
   71999, 72003, 72004, 72148, 72156, 72160, 72161, 72193, 72199, 72201, 72203, 72243, 72249,
   72251, 72255, 72263, 72272, 72273, 72279, 72281, 72284, 72330, 72343, 72344, 72346, 72752,
   72766, 72850, 72873, 72874, 72881, 72882, 72884, 72885, 72960, 73009, 73030, 73031, 73040,
   73104, 73107, 73109, 73110, 73111, 73112, 73459, 73461, 92912, 92917, 92976, 92983, 94031,
   94032, 94095, 94099, 94180, 94192, 113821, 113823, 118528, 118608, 119143, 119146, 119163,
   119171, 119173, 119180, 119210, 119214, 119362, 119365, 121344, 121399, 121403, 121453,
   121461, 121462, 121476, 121477, 121499, 122624, 122880, 123136, 123184, 123191, 123566,
   123584, 123628, 123632, 125136, 125184, 125252, 125259, 917760, 983040]

/-- Where the digits of European shape begin and end. -/
def europeanRuns : List Nat :=
  [
   48, 58, 178, 180, 185, 186, 1776, 1786, 8304, 8305, 8308, 8314, 8320, 8330, 9352, 9372,
   65296, 65306, 66273, 66304, 120782, 120832, 127232, 127243, 130032, 131072]

/-- Where the digits of Arabic shape begin and end. -/
def arabicRuns : List Nat :=
  [
   1536, 1542, 1632, 1642, 1643, 1645, 1757, 1758, 2192, 2200, 2274, 2275, 68912, 69248]

/-- Where the signs without a direction begin and end, as far as names of hosts may have them. -/
def neutralRuns : List Nat :=
  [
   45, 48, 183, 223, 697, 699, 710, 720, 748, 750, 885, 887, 8204, 8526, 11823, 12293, 12539,
   12540, 42623, 42625, 42775, 42787, 42888, 42892]

/-- Where the characters begin and end that names of hosts may have, and that are too recent for
their direction to be known. -/
def recentRuns : List Nat :=
  [
   2191, 2192, 2199, 2200, 3164, 3165, 3292, 3293, 3315, 3316, 3790, 3791, 6863, 6878, 6880,
   6892, 7306, 7307, 42957, 42958, 42959, 42960, 42971, 42972, 67008, 67060, 67904, 67930,
   68928, 68944, 68969, 68974, 68975, 68998, 69314, 69320, 69370, 69376, 70207, 70210, 70528,
   70538, 70539, 70540, 70542, 70543, 70544, 70582, 70583, 70593, 70594, 70595, 70597, 70598,
   70599, 70603, 70604, 70612, 70625, 70627, 71376, 71396, 72544, 72552, 72640, 72673, 72688,
   72698, 73136, 73180, 73184, 73194, 73472, 73489, 73490, 73531, 73534, 73539, 73552, 73563,
   78895, 78896, 78912, 78934, 78944, 82939, 90368, 90426, 93504, 93549, 93552, 93562, 93883,
   93908, 94194, 94196, 100344, 100352, 101631, 101632, 101641, 101663, 101760, 101875, 110898,
   110899, 110933, 110934, 122661, 122667, 123023, 123024, 124112, 124154, 124368, 124411,
   124608, 124639, 124640, 124662, 124670, 124672, 177977, 177984, 183970, 183982, 191472,
   192094, 201552, 210042]

inductive Direction where
  | leftToRight
  | rightToLeft
  | european
  | arabic
  /-- The direction of the letter before it. -/
  | attached
  | neutral
  | unknown
  deriving DecidableEq, Repr

def directionOf (c : Char) : Direction :=
  let code := c.toNat
  if inRuns recentRuns code then .unknown
  else if inRuns rightToLeftRuns code then .rightToLeft
  else if inRuns attachedRuns code then .attached
  else if inRuns europeanRuns code then .european
  else if inRuns arabicRuns code then .arabic
  else if inRuns neutralRuns code then .neutral
  else .leftToRight

/-- Whether a direction makes the whole word go from right to left. -/
def Direction.turns : Direction → Bool
  | .rightToLeft => true
  | .arabic => true
  | _ => false

/-- Whether a word from right to left may end so. -/
def Direction.ends : Direction → Bool
  | .rightToLeft => true
  | .european => true
  | .arabic => true
  | _ => false

/-- Whether the characters of a word go together in one direction.  A word with a character of
unknown direction does not. -/
def goesOneWay (word : List Char) : Bool :=
  let directions := word.map directionOf
  !directions.contains .unknown && (!directions.any Direction.turns ||
    (directions.head? == some .rightToLeft && !directions.contains .leftToRight &&
      !(directions.contains .european && directions.contains .arabic) &&
      (directions.reverse.dropWhile (· == .attached)).head?.any Direction.ends))

end OpenApi.Text
