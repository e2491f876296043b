import OpenApi.Text.Direction

/-
How letters of joined scripts take hold of their neighbours, and where the signs stand that forbid
or ask for a join.

Such a sign has a meaning after a mark that takes away a vowel; the one that forbids a join also has
one between two letters that would be joined without it.
-/
namespace OpenApi.Text

/-- Where the letters begin and end that join the next one. -/
def forwardRuns : List Nat :=
  [
   1568, 1569, 1574, 1575, 1576, 1577, 1578, 1583, 1587, 1600, 1601, 1608, 1609, 1611, 1646,
   1648, 1656, 1672, 1690, 1728, 1729, 1731, 1740, 1741, 1742, 1743, 1744, 1746, 1786, 1789,
   1791, 1792, 1810, 1813, 1818, 1822, 1823, 1832, 1833, 1834, 1835, 1836, 1837, 1839, 1870,
   1881, 1884, 1899, 1901, 1905, 1906, 1907, 1909, 1912, 1914, 1920, 1994, 2027, 2113, 2118,
   2120, 2121, 2122, 2132, 2133, 2134, 2144, 2145, 2146, 2150, 2152, 2153, 2182, 2183, 2185,
   2190, 2208, 2218, 2223, 2225, 2227, 2233, 2234, 2249, 6151, 6152, 6176, 6272, 6279, 6313,
   6314, 6320, 43072, 43123, 68288, 68293, 68301, 68302, 68307, 68317, 68318, 68321, 68331,
   68335, 68480, 68481, 68482, 68483, 68486, 68489, 68490, 68492, 68493, 68494, 68496, 68497,
   68525, 68527, 68864, 68898, 68899, 68900, 69424, 69427, 69428, 69445, 69457, 69460, 69488,
   69492, 69494, 69506, 69552, 69553, 69554, 69556, 69560, 69561, 69563, 69565, 69566, 69568,
   69569, 69570, 69572, 69573, 69578, 69600, 125184, 125252]

/-- Where the letters begin and end that join the one before. -/
def backwardRuns : List Nat :=
  [
   1568, 1569, 1570, 1600, 1601, 1611, 1646, 1648, 1649, 1652, 1653, 1748, 1749, 1750, 1774,
   1776, 1786, 1789, 1791, 1792, 1808, 1809, 1810, 1840, 1869, 1920, 1994, 2027, 2112, 2137,
   2144, 2145, 2146, 2150, 2151, 2179, 2182, 2183, 2185, 2192, 2208, 2221, 2222, 2249, 6151,
   6152, 6176, 6272, 6279, 6313, 6314, 6320, 43072, 43122, 68288, 68294, 68295, 68296, 68297,
   68299, 68302, 68311, 68312, 68322, 68324, 68325, 68331, 68336, 68480, 68505, 68521, 68527,
   68865, 68900, 69424, 69445, 69457, 69461, 69488, 69506, 69552, 69553, 69554, 69559, 69560,
   69568, 69569, 69573, 69577, 69579, 125184, 125252]

/-- Where the marks begin and end that take away a vowel. -/
def silencerRuns : List Nat :=
  [
   2381, 2382, 2509, 2510, 2637, 2641, 2765, 2768, 2893, 2901, 3021, 3024, 3149, 3157, 3277,
   3285, 3387, 3389, 3405, 3406, 3530, 3535, 3642, 3647, 3770, 3771, 3972, 3973, 4153, 4155,
   5908, 5919, 5940, 5941, 6098, 6099, 6752, 6753, 6980, 6981, 7082, 7084, 7154, 7164, 11647,
   11648, 43014, 43015, 43052, 43056, 43204, 43205, 43347, 43359, 43456, 43457, 43766, 43777,
   44013, 44016, 68159, 68160, 69702, 69703, 69744, 69745, 69759, 69760, 69817, 69818, 69939,
   69942, 70080, 70081, 70197, 70198, 70378, 70384, 70477, 70480, 70722, 70723, 70850, 70851,
   71103, 71104, 71231, 71232, 71350, 71351, 71467, 71472, 71737, 71738, 71997, 71999, 72160,
   72161, 72244, 72245, 72263, 72272, 72345, 72346, 72767, 72768, 73028, 73030, 73111, 73112]

/-- Marks that letters join across, besides those that go along with the letter before them. -/
def otherTransparent : List Nat := [3263, 3270, 72199, 72200, 72767, 125259]

def joinsForward (c : Char) : Bool := inRuns forwardRuns c.toNat

def joinsBackward (c : Char) : Bool := inRuns backwardRuns c.toNat

def isSilencer (c : Char) : Bool := inRuns silencerRuns c.toNat

/-- Whether letters join across a character. -/
def isTransparent (c : Char) : Bool :=
  inRuns attachedRuns c.toNat || otherTransparent.contains c.toNat

/-- Whether the letters on both sides would be joined; those before it are given last one first. -/
def wouldJoin (before after : List Char) : Bool :=
  (before.dropWhile isTransparent).head?.any joinsForward &&
    (after.dropWhile isTransparent).head?.any joinsBackward

end OpenApi.Text
