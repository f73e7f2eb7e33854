import TableMapper.Text.Letter

/-!
# Word characters

The characters a pattern's `\w` stands for: letters of every script, and
with them the marks, decimal digits, connecting punctuation and joiners that
continue a word.
-/

namespace TableMapper.Text

/-- The marks, digits, connectors and joiners that are not alphabetic. -/
def wordContinuations : List Span :=
  [⟨48, 57, 1⟩, ⟨95, 95, 1⟩, ⟨768, 836, 1⟩, ⟨838, 879, 1⟩, ⟨1155, 1161, 1⟩, ⟨1425, 1455, 1⟩,
   ⟨1624, 1624, 1⟩, ⟨1632, 1641, 1⟩, ⟨1759, 1760, 1⟩, ⟨1770, 1772, 1⟩, ⟨1776, 1785, 1⟩,
   ⟨1856, 1866, 1⟩, ⟨1984, 1993, 1⟩, ⟨2027, 2035, 1⟩, ⟨2045, 2045, 1⟩, ⟨2072, 2073, 1⟩,
   ⟨2093, 2093, 1⟩, ⟨2137, 2139, 1⟩, ⟨2200, 2207, 1⟩, ⟨2250, 2259, 1⟩, ⟨2272, 2273, 1⟩,
   ⟨2282, 2287, 1⟩, ⟨2364, 2364, 1⟩, ⟨2381, 2381, 1⟩, ⟨2385, 2388, 1⟩, ⟨2406, 2415, 1⟩,
   ⟨2492, 2492, 1⟩, ⟨2509, 2509, 1⟩, ⟨2534, 2543, 1⟩, ⟨2558, 2558, 1⟩, ⟨2620, 2620, 1⟩,
   ⟨2637, 2637, 1⟩, ⟨2662, 2671, 1⟩, ⟨2748, 2748, 1⟩, ⟨2765, 2765, 1⟩, ⟨2790, 2799, 1⟩,
   ⟨2813, 2815, 1⟩, ⟨2876, 2876, 1⟩, ⟨2893, 2893, 1⟩, ⟨2901, 2901, 1⟩, ⟨2918, 2927, 1⟩,
   ⟨3021, 3021, 1⟩, ⟨3046, 3055, 1⟩, ⟨3132, 3132, 1⟩, ⟨3149, 3149, 1⟩, ⟨3174, 3183, 1⟩,
   ⟨3260, 3260, 1⟩, ⟨3277, 3277, 1⟩, ⟨3302, 3311, 1⟩, ⟨3387, 3388, 1⟩, ⟨3405, 3405, 1⟩,
   ⟨3430, 3439, 1⟩, ⟨3530, 3530, 1⟩, ⟨3558, 3567, 1⟩, ⟨3655, 3660, 1⟩, ⟨3662, 3662, 1⟩,
   ⟨3664, 3673, 1⟩, ⟨3770, 3770, 1⟩, ⟨3784, 3788, 1⟩, ⟨3790, 3790, 1⟩, ⟨3792, 3801, 1⟩,
   ⟨3864, 3865, 1⟩, ⟨3872, 3881, 1⟩, ⟨3893, 3897, 2⟩, ⟨3902, 3903, 1⟩, ⟨3972, 3972, 1⟩,
   ⟨3974, 3975, 1⟩, ⟨4038, 4038, 1⟩, ⟨4151, 4151, 1⟩, ⟨4153, 4154, 1⟩, ⟨4160, 4169, 1⟩,
   ⟨4240, 4249, 1⟩, ⟨4957, 4959, 1⟩, ⟨5908, 5909, 1⟩, ⟨5940, 5940, 1⟩, ⟨6068, 6069, 1⟩,
   ⟨6089, 6099, 1⟩, ⟨6109, 6109, 1⟩, ⟨6112, 6121, 1⟩, ⟨6155, 6157, 1⟩, ⟨6159, 6169, 1⟩,
   ⟨6457, 6459, 1⟩, ⟨6470, 6479, 1⟩, ⟨6608, 6617, 1⟩, ⟨6752, 6752, 1⟩, ⟨6773, 6780, 1⟩,
   ⟨6783, 6793, 1⟩, ⟨6800, 6809, 1⟩, ⟨6832, 6846, 1⟩, ⟨6849, 6859, 1⟩, ⟨6964, 6964, 1⟩,
   ⟨6980, 6980, 1⟩, ⟨6992, 7001, 1⟩, ⟨7019, 7027, 1⟩, ⟨7082, 7083, 1⟩, ⟨7088, 7097, 1⟩,
   ⟨7142, 7142, 1⟩, ⟨7154, 7155, 1⟩, ⟨7223, 7223, 1⟩, ⟨7232, 7241, 1⟩, ⟨7248, 7257, 1⟩,
   ⟨7376, 7378, 1⟩, ⟨7380, 7400, 1⟩, ⟨7405, 7405, 1⟩, ⟨7412, 7412, 1⟩, ⟨7415, 7417, 1⟩,
   ⟨7616, 7654, 1⟩, ⟨7669, 7679, 1⟩, ⟨8204, 8205, 1⟩, ⟨8255, 8256, 1⟩, ⟨8276, 8276, 1⟩,
   ⟨8400, 8432, 1⟩, ⟨11503, 11505, 1⟩, ⟨11647, 11647, 1⟩, ⟨12330, 12335, 1⟩, ⟨12441, 12442, 1⟩,
   ⟨42528, 42537, 1⟩, ⟨42607, 42610, 1⟩, ⟨42620, 42621, 1⟩, ⟨42736, 42737, 1⟩,
   ⟨43014, 43014, 1⟩, ⟨43052, 43052, 1⟩, ⟨43204, 43204, 1⟩, ⟨43216, 43225, 1⟩,
   ⟨43232, 43249, 1⟩, ⟨43264, 43273, 1⟩, ⟨43307, 43309, 1⟩, ⟨43347, 43347, 1⟩,
   ⟨43443, 43443, 1⟩, ⟨43456, 43456, 1⟩, ⟨43472, 43481, 1⟩, ⟨43504, 43513, 1⟩,
   ⟨43600, 43609, 1⟩, ⟨43711, 43711, 1⟩, ⟨43713, 43713, 1⟩, ⟨43766, 43766, 1⟩,
   ⟨44012, 44013, 1⟩, ⟨44016, 44025, 1⟩, ⟨65024, 65039, 1⟩, ⟨65056, 65071, 1⟩,
   ⟨65075, 65076, 1⟩, ⟨65101, 65103, 1⟩, ⟨65296, 65305, 1⟩, ⟨65343, 65343, 1⟩,
   ⟨66045, 66045, 1⟩, ⟨66272, 66272, 1⟩, ⟨66720, 66729, 1⟩, ⟨68152, 68154, 1⟩,
   ⟨68159, 68159, 1⟩, ⟨68325, 68326, 1⟩, ⟨68912, 68921, 1⟩, ⟨69373, 69375, 1⟩,
   ⟨69446, 69456, 1⟩, ⟨69506, 69509, 1⟩, ⟨69702, 69702, 1⟩, ⟨69734, 69744, 1⟩,
   ⟨69759, 69759, 1⟩, ⟨69817, 69818, 1⟩, ⟨69872, 69881, 1⟩, ⟨69939, 69940, 1⟩,
   ⟨69942, 69951, 1⟩, ⟨70003, 70003, 1⟩, ⟨70080, 70080, 1⟩, ⟨70089, 70092, 1⟩,
   ⟨70096, 70105, 1⟩, ⟨70197, 70198, 1⟩, ⟨70377, 70378, 1⟩, ⟨70384, 70393, 1⟩,
   ⟨70459, 70460, 1⟩, ⟨70477, 70477, 1⟩, ⟨70502, 70508, 1⟩, ⟨70512, 70516, 1⟩,
   ⟨70722, 70722, 1⟩, ⟨70726, 70726, 1⟩, ⟨70736, 70745, 1⟩, ⟨70750, 70750, 1⟩,
   ⟨70850, 70851, 1⟩, ⟨70864, 70873, 1⟩, ⟨71103, 71104, 1⟩, ⟨71231, 71231, 1⟩,
   ⟨71248, 71257, 1⟩, ⟨71350, 71351, 1⟩, ⟨71360, 71369, 1⟩, ⟨71467, 71467, 1⟩,
   ⟨71472, 71481, 1⟩, ⟨71737, 71738, 1⟩, ⟨71904, 71913, 1⟩, ⟨71997, 71998, 1⟩,
   ⟨72003, 72003, 1⟩, ⟨72016, 72025, 1⟩, ⟨72160, 72160, 1⟩, ⟨72243, 72244, 1⟩,
   ⟨72263, 72263, 1⟩, ⟨72344, 72345, 1⟩, ⟨72767, 72767, 1⟩, ⟨72784, 72793, 1⟩,
   ⟨73026, 73026, 1⟩, ⟨73028, 73029, 1⟩, ⟨73040, 73049, 1⟩, ⟨73111, 73111, 1⟩,
   ⟨73120, 73129, 1⟩, ⟨73537, 73538, 1⟩, ⟨73552, 73561, 1⟩, ⟨78912, 78912, 1⟩,
   ⟨78919, 78933, 1⟩, ⟨92768, 92777, 1⟩, ⟨92864, 92873, 1⟩, ⟨92912, 92916, 1⟩,
   ⟨92976, 92982, 1⟩, ⟨93008, 93017, 1⟩, ⟨94180, 94180, 1⟩, ⟨113821, 113821, 1⟩,
   ⟨118528, 118573, 1⟩, ⟨118576, 118598, 1⟩, ⟨119141, 119145, 1⟩, ⟨119149, 119154, 1⟩,
   ⟨119163, 119170, 1⟩, ⟨119173, 119179, 1⟩, ⟨119210, 119213, 1⟩, ⟨119362, 119364, 1⟩,
   ⟨120782, 120831, 1⟩, ⟨121344, 121398, 1⟩, ⟨121403, 121452, 1⟩, ⟨121461, 121461, 1⟩,
   ⟨121476, 121476, 1⟩, ⟨121499, 121503, 1⟩, ⟨121505, 121519, 1⟩, ⟨123184, 123190, 1⟩,
   ⟨123200, 123209, 1⟩, ⟨123566, 123566, 1⟩, ⟨123628, 123641, 1⟩, ⟨124140, 124153, 1⟩,
   ⟨125136, 125142, 1⟩, ⟨125252, 125254, 1⟩, ⟨125256, 125258, 1⟩, ⟨125264, 125273, 1⟩,
   ⟨130032, 130041, 1⟩, ⟨917760, 917999, 1⟩]

/-- **A word character** is alphabetic or continues a word. -/
def isWordChar (c : Char) : Bool :=
  isAlphabetic c || Span.anyHas wordContinuations c.toNat

end TableMapper.Text
