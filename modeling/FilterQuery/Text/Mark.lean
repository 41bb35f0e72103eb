import FilterQuery.Text.Numeral

/-!
Combining marks, diacritics and connecting punctuation, and the two classes built from them: the
characters of a word and the characters that may continue an identifier.
-/
namespace FilterQuery.Text

/-- Boundaries of the runs of nonspacing marks (general category Mn). -/
def nonspacingRuns : List Nat :=
  [768, 880, 1155, 1160, 1425, 1470, 1471, 1472, 1473, 1475, 1476, 1478, 1479, 1480, 1552, 1563,
   1611, 1632, 1648, 1649, 1750, 1757, 1759, 1765, 1767, 1769, 1770, 1774, 1809, 1810, 1840, 1867,
   1958, 1969, 2027, 2036, 2045, 2046, 2070, 2074, 2075, 2084, 2085, 2088, 2089, 2094, 2137, 2140,
   2199, 2208, 2250, 2274, 2275, 2307, 2362, 2363, 2364, 2365, 2369, 2377, 2381, 2382, 2385, 2392,
   2402, 2404, 2433, 2434, 2492, 2493, 2497, 2501, 2509, 2510, 2530, 2532, 2558, 2559, 2561, 2563,
   2620, 2621, 2625, 2627, 2631, 2633, 2635, 2638, 2641, 2642, 2672, 2674, 2677, 2678, 2689, 2691,
   2748, 2749, 2753, 2758, 2759, 2761, 2765, 2766, 2786, 2788, 2810, 2816, 2817, 2818, 2876, 2877,
   2879, 2880, 2881, 2885, 2893, 2894, 2901, 2903, 2914, 2916, 2946, 2947, 3008, 3009, 3021, 3022,
   3072, 3073, 3076, 3077, 3132, 3133, 3134, 3137, 3142, 3145, 3146, 3150, 3157, 3159, 3170, 3172,
   3201, 3202, 3260, 3261, 3263, 3264, 3270, 3271, 3276, 3278, 3298, 3300, 3328, 3330, 3387, 3389,
   3393, 3397, 3405, 3406, 3426, 3428, 3457, 3458, 3530, 3531, 3538, 3541, 3542, 3543, 3633, 3634,
   3636, 3643, 3655, 3663, 3761, 3762, 3764, 3773, 3784, 3791, 3864, 3866, 3893, 3894, 3895, 3896,
   3897, 3898, 3953, 3967, 3968, 3973, 3974, 3976, 3981, 3992, 3993, 4029, 4038, 4039, 4141, 4145,
   4146, 4152, 4153, 4155, 4157, 4159, 4184, 4186, 4190, 4193, 4209, 4213, 4226, 4227, 4229, 4231,
   4237, 4238, 4253, 4254, 4957, 4960, 5906, 5909, 5938, 5940, 5970, 5972, 6002, 6004, 6068, 6070,
   6071, 6078, 6086, 6087, 6089, 6100, 6109, 6110, 6155, 6158, 6159, 6160, 6277, 6279, 6313, 6314,
   6432, 6435, 6439, 6441, 6450, 6451, 6457, 6460, 6679, 6681, 6683, 6684, 6742, 6743, 6744, 6751,
   6752, 6753, 6754, 6755, 6757, 6765, 6771, 6781, 6783, 6784, 6832, 6846, 6847, 6878, 6880, 6892,
   6912, 6916, 6964, 6965, 6966, 6971, 6972, 6973, 6978, 6979, 7019, 7028, 7040, 7042, 7074, 7078,
   7080, 7082, 7083, 7086, 7142, 7143, 7144, 7146, 7149, 7150, 7151, 7154, 7212, 7220, 7222, 7224,
   7376, 7379, 7380, 7393, 7394, 7401, 7405, 7406, 7412, 7413, 7416, 7418, 7616, 7680, 8400, 8413,
   8417, 8418, 8421, 8433, 11503, 11506, 11647, 11648, 11744, 11776, 12330, 12334, 12441, 12443,
   42607, 42608, 42612, 42622, 42654, 42656, 42736, 42738, 43010, 43011, 43014, 43015, 43019, 43020,
   43045, 43047, 43052, 43053, 43204, 43206, 43232, 43250, 43263, 43264, 43302, 43310, 43335, 43346,
   43392, 43395, 43443, 43444, 43446, 43450, 43452, 43454, 43493, 43494, 43561, 43567, 43569, 43571,
   43573, 43575, 43587, 43588, 43596, 43597, 43644, 43645, 43696, 43697, 43698, 43701, 43703, 43705,
   43710, 43712, 43713, 43714, 43756, 43758, 43766, 43767, 44005, 44006, 44008, 44009, 44013, 44014,
   64286, 64287, 65024, 65040, 65056, 65072, 66045, 66046, 66272, 66273, 66422, 66427, 68097, 68100,
   68101, 68103, 68108, 68112, 68152, 68155, 68159, 68160, 68325, 68327, 68900, 68904, 68969, 68974,
   69291, 69293, 69370, 69376, 69446, 69457, 69506, 69510, 69633, 69634, 69688, 69703, 69744, 69745,
   69747, 69749, 69759, 69762, 69811, 69815, 69817, 69819, 69826, 69827, 69888, 69891, 69927, 69932,
   69933, 69941, 70003, 70004, 70016, 70018, 70070, 70079, 70089, 70093, 70095, 70096, 70191, 70194,
   70196, 70197, 70198, 70200, 70206, 70207, 70209, 70210, 70367, 70368, 70371, 70379, 70400, 70402,
   70459, 70461, 70464, 70465, 70502, 70509, 70512, 70517, 70587, 70593, 70606, 70607, 70608, 70609,
   70610, 70611, 70625, 70627, 70712, 70720, 70722, 70725, 70726, 70727, 70750, 70751, 70835, 70841,
   70842, 70843, 70847, 70849, 70850, 70852, 71090, 71094, 71100, 71102, 71103, 71105, 71132, 71134,
   71219, 71227, 71229, 71230, 71231, 71233, 71339, 71340, 71341, 71342, 71344, 71350, 71351, 71352,
   71453, 71454, 71455, 71456, 71458, 71462, 71463, 71468, 71727, 71736, 71737, 71739, 71995, 71997,
   71998, 71999, 72003, 72004, 72148, 72152, 72154, 72156, 72160, 72161, 72193, 72203, 72243, 72249,
   72251, 72255, 72263, 72264, 72273, 72279, 72281, 72284, 72330, 72343, 72344, 72346, 72544, 72545,
   72546, 72549, 72550, 72551, 72752, 72759, 72760, 72766, 72767, 72768, 72850, 72872, 72874, 72881,
   72882, 72884, 72885, 72887, 73009, 73015, 73018, 73019, 73020, 73022, 73023, 73030, 73031, 73032,
   73104, 73106, 73109, 73110, 73111, 73112, 73459, 73461, 73472, 73474, 73526, 73531, 73536, 73537,
   73538, 73539, 73562, 73563, 78912, 78913, 78919, 78934, 90398, 90410, 90413, 90416, 92912, 92917,
   92976, 92983, 94031, 94032, 94095, 94099, 94180, 94181, 113821, 113823, 118528, 118574, 118576,
   118599, 119143, 119146, 119163, 119171, 119173, 119180, 119210, 119214, 119362, 119365, 121344,
   121399, 121403, 121453, 121461, 121462, 121476, 121477, 121499, 121504, 121505, 121520, 122880,
   122887, 122888, 122905, 122907, 122914, 122915, 122917, 122918, 122923, 123023, 123024, 123184,
   123191, 123566, 123567, 123628, 123632, 124140, 124144, 124398, 124400, 124643, 124644, 124646,
   124647, 124654, 124656, 124661, 124662, 125136, 125143, 125252, 125259, 917760, 918000]

/-- Boundaries of the runs of spacing and enclosing marks (general categories Mc and Me). -/
def spacingRuns : List Nat :=
  [1160, 1162, 2307, 2308, 2363, 2364, 2366, 2369, 2377, 2381, 2382, 2384, 2434, 2436, 2494, 2497,
   2503, 2505, 2507, 2509, 2519, 2520, 2563, 2564, 2622, 2625, 2691, 2692, 2750, 2753, 2761, 2762,
   2763, 2765, 2818, 2820, 2878, 2879, 2880, 2881, 2887, 2889, 2891, 2893, 2903, 2904, 3006, 3008,
   3009, 3011, 3014, 3017, 3018, 3021, 3031, 3032, 3073, 3076, 3137, 3141, 3202, 3204, 3262, 3263,
   3264, 3269, 3271, 3273, 3274, 3276, 3285, 3287, 3315, 3316, 3330, 3332, 3390, 3393, 3398, 3401,
   3402, 3405, 3415, 3416, 3458, 3460, 3535, 3538, 3544, 3552, 3570, 3572, 3902, 3904, 3967, 3968,
   4139, 4141, 4145, 4146, 4152, 4153, 4155, 4157, 4182, 4184, 4194, 4197, 4199, 4206, 4227, 4229,
   4231, 4237, 4239, 4240, 4250, 4253, 5909, 5910, 5940, 5941, 6070, 6071, 6078, 6086, 6087, 6089,
   6435, 6439, 6441, 6444, 6448, 6450, 6451, 6457, 6681, 6683, 6741, 6742, 6743, 6744, 6753, 6754,
   6755, 6757, 6765, 6771, 6846, 6847, 6916, 6917, 6965, 6966, 6971, 6972, 6973, 6978, 6979, 6981,
   7042, 7043, 7073, 7074, 7078, 7080, 7082, 7083, 7143, 7144, 7146, 7149, 7150, 7151, 7154, 7156,
   7204, 7212, 7220, 7222, 7393, 7394, 7415, 7416, 8413, 8417, 8418, 8421, 12334, 12336, 42608,
   42611, 43043, 43045, 43047, 43048, 43136, 43138, 43188, 43204, 43346, 43348, 43395, 43396, 43444,
   43446, 43450, 43452, 43454, 43457, 43567, 43569, 43571, 43573, 43597, 43598, 43643, 43644, 43645,
   43646, 43755, 43756, 43758, 43760, 43765, 43766, 44003, 44005, 44006, 44008, 44009, 44011, 44012,
   44013, 69632, 69633, 69634, 69635, 69762, 69763, 69808, 69811, 69815, 69817, 69932, 69933, 69957,
   69959, 70018, 70019, 70067, 70070, 70079, 70081, 70094, 70095, 70188, 70191, 70194, 70196, 70197,
   70198, 70368, 70371, 70402, 70404, 70462, 70464, 70465, 70469, 70471, 70473, 70475, 70478, 70487,
   70488, 70498, 70500, 70584, 70587, 70594, 70595, 70597, 70598, 70599, 70603, 70604, 70606, 70607,
   70608, 70709, 70712, 70720, 70722, 70725, 70726, 70832, 70835, 70841, 70842, 70843, 70847, 70849,
   70850, 71087, 71090, 71096, 71100, 71102, 71103, 71216, 71219, 71227, 71229, 71230, 71231, 71340,
   71341, 71342, 71344, 71350, 71351, 71454, 71455, 71456, 71458, 71462, 71463, 71724, 71727, 71736,
   71737, 71984, 71990, 71991, 71993, 71997, 71998, 72000, 72001, 72002, 72003, 72145, 72148, 72156,
   72160, 72164, 72165, 72249, 72250, 72279, 72281, 72343, 72344, 72545, 72546, 72549, 72550, 72551,
   72552, 72751, 72752, 72766, 72767, 72873, 72874, 72881, 72882, 72884, 72885, 73098, 73103, 73107,
   73109, 73110, 73111, 73461, 73463, 73475, 73476, 73524, 73526, 73534, 73536, 73537, 73538, 90410,
   90413, 94033, 94088, 94192, 94194, 119141, 119143, 119149, 119155]

def diacriticRuns : List Nat :=
  [94, 95, 96, 97, 168, 169, 175, 176, 180, 181, 183, 185, 688, 847, 848, 856, 861, 867, 884, 886,
   890, 891, 900, 902, 1155, 1160, 1369, 1370, 1425, 1470, 1471, 1472, 1473, 1475, 1476, 1478, 1479,
   1480, 1611, 1619, 1623, 1625, 1759, 1761, 1765, 1767, 1770, 1773, 1840, 1867, 1958, 1969, 2027,
   2038, 2072, 2074, 2200, 2208, 2249, 2259, 2275, 2303, 2364, 2365, 2381, 2382, 2385, 2389, 2417,
   2418, 2492, 2493, 2509, 2510, 2620, 2621, 2637, 2638, 2748, 2749, 2765, 2766, 2813, 2816, 2876,
   2877, 2893, 2894, 2901, 2902, 3021, 3022, 3132, 3133, 3149, 3150, 3260, 3261, 3277, 3278, 3387,
   3389, 3405, 3406, 3530, 3531, 3642, 3643, 3655, 3661, 3662, 3663, 3770, 3771, 3784, 3789, 3864,
   3866, 3893, 3894, 3895, 3896, 3897, 3898, 3902, 3904, 3970, 3973, 3974, 3976, 4038, 4039, 4151,
   4152, 4153, 4155, 4195, 4197, 4201, 4206, 4231, 4238, 4239, 4240, 4250, 4252, 4957, 4960, 5908,
   5910, 5940, 5941, 6089, 6100, 6109, 6110, 6457, 6460, 6752, 6753, 6773, 6781, 6783, 6784, 6832,
   6847, 6849, 6860, 6863, 6878, 6880, 6892, 6964, 6965, 6980, 6981, 7019, 7028, 7082, 7084, 7142,
   7143, 7154, 7156, 7222, 7224, 7288, 7294, 7376, 7401, 7405, 7406, 7412, 7413, 7415, 7418, 7468,
   7531, 7579, 7615, 7620, 7632, 7669, 7680, 8125, 8126, 8127, 8130, 8141, 8144, 8157, 8160, 8173,
   8176, 8189, 8191, 11503, 11506, 11823, 11824, 12330, 12336, 12441, 12445, 12540, 12541, 42607,
   42608, 42620, 42622, 42623, 42624, 42652, 42654, 42736, 42738, 42752, 42786, 42888, 42891, 42993,
   42994, 43000, 43002, 43014, 43015, 43052, 43053, 43204, 43205, 43232, 43250, 43307, 43311, 43347,
   43348, 43443, 43444, 43456, 43457, 43493, 43494, 43643, 43646, 43711, 43715, 43766, 43767, 43867,
   43872, 43881, 43884, 44012, 44014, 64286, 64287, 65056, 65072, 65342, 65343, 65344, 65345, 65392,
   65393, 65438, 65440, 65507, 65508, 66272, 66273, 67456, 67462, 67463, 67505, 67506, 67515, 68152,
   68155, 68159, 68160, 68325, 68327, 68898, 68904, 68942, 68943, 68969, 68974, 69370, 69371, 69373,
   69376, 69446, 69457, 69506, 69510, 69702, 69703, 69744, 69745, 69817, 69819, 69939, 69941, 70003,
   70004, 70080, 70081, 70090, 70093, 70197, 70199, 70377, 70379, 70459, 70461, 70477, 70478, 70502,
   70509, 70512, 70517, 70606, 70609, 70610, 70612, 70625, 70627, 70722, 70723, 70726, 70727, 70850,
   70852, 71103, 71105, 71231, 71232, 71350, 71352, 71467, 71468, 71737, 71739, 71997, 71999, 72003,
   72004, 72160, 72161, 72244, 72245, 72263, 72264, 72345, 72346, 72767, 72768, 73026, 73027, 73028,
   73030, 73111, 73112, 73177, 73178, 73537, 73539, 73562, 73563, 78919, 78934, 90415, 90416, 92912,
   92917, 92976, 92983, 93547, 93549, 94095, 94112, 94192, 94194, 110576, 110580, 110581, 110588,
   110589, 110591, 118528, 118574, 118576, 118599, 119143, 119146, 119149, 119155, 119163, 119171,
   119173, 119180, 119210, 119214, 122928, 122990, 123184, 123191, 123566, 123567, 123628, 123632,
   124398, 124400, 125136, 125143, 125252, 125255, 125256, 125259]

/-- Boundaries of the runs of connecting punctuation (general category Pc). -/
def connectorRuns : List Nat :=
  [95, 96, 8255, 8257, 8276, 8277, 65075, 65077, 65101, 65104, 65343, 65344]

def isJoiner (c : Char) : Bool :=
  c == '\u200c' || c == '\u200d'

/-- A character of a word: alphabetic, a mark, a decimal digit, a connector or a joiner. -/
def isWordChar (c : Char) : Bool :=
  isAlphabetic c || within nonspacingRuns c || within spacingRuns c || isDecimalDigit c
    || within connectorRuns c || isJoiner c

def startsIdentifier (c : Char) : Bool :=
  isLetter c || c == '$' || c == '_'

def continuesIdentifier (c : Char) : Bool :=
  startsIdentifier c || within nonspacingRuns c || within diacriticRuns c || isDecimalDigit c
    || within connectorRuns c || isJoiner c

end FilterQuery.Text
