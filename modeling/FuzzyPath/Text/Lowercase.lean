/-
  FuzzyPath — the lowercase letters beyond ASCII.

  * `lowercaseRuns` lists the code points from U+0080 on with the Unicode
    property `Lowercase` (version 17.0 of the standard).
-/
import FuzzyPath.Text.CodePoints

namespace FuzzyPath

/-- The code points from U+0080 on that are lowercase. -/
def lowercaseRuns : List CodePointRun :=
  [(0xaa, 0xaa, 1), (0xb5, 0xb5, 1), (0xba, 0xba, 1), (0xdf, 0xf6, 1), (0xf8, 0xff, 1),
  (0x101, 0x135, 2), (0x137, 0x138, 1), (0x13a, 0x146, 2), (0x148, 0x149, 1), (0x14b, 0x177, 2),
  (0x17a, 0x17c, 2), (0x17e, 0x180, 1), (0x183, 0x185, 2), (0x188, 0x188, 1), (0x18c, 0x18d, 1),
  (0x192, 0x192, 1), (0x195, 0x195, 1), (0x199, 0x19b, 1), (0x19e, 0x19e, 1), (0x1a1, 0x1a5, 2),
  (0x1a8, 0x1a8, 1), (0x1aa, 0x1ab, 1), (0x1ad, 0x1ad, 1), (0x1b0, 0x1b0, 1), (0x1b4, 0x1b6, 2),
  (0x1b9, 0x1ba, 1), (0x1bd, 0x1bf, 1), (0x1c6, 0x1c6, 1), (0x1c9, 0x1c9, 1), (0x1cc, 0x1da, 2),
  (0x1dc, 0x1dd, 1), (0x1df, 0x1ed, 2), (0x1ef, 0x1f0, 1), (0x1f3, 0x1f5, 2), (0x1f9, 0x231, 2),
  (0x233, 0x239, 1), (0x23c, 0x23c, 1), (0x23f, 0x240, 1), (0x242, 0x242, 1), (0x247, 0x24d, 2),
  (0x24f, 0x293, 1), (0x296, 0x2b8, 1), (0x2c0, 0x2c1, 1), (0x2e0, 0x2e4, 1), (0x345, 0x345, 1),
  (0x371, 0x373, 2), (0x377, 0x377, 1), (0x37a, 0x37d, 1), (0x390, 0x390, 1), (0x3ac, 0x3ce, 1),
  (0x3d0, 0x3d1, 1), (0x3d5, 0x3d7, 1), (0x3d9, 0x3ed, 2), (0x3ef, 0x3f3, 1), (0x3f5, 0x3f5, 1),
  (0x3f8, 0x3f8, 1), (0x3fb, 0x3fc, 1), (0x430, 0x45f, 1), (0x461, 0x481, 2), (0x48b, 0x4bf, 2),
  (0x4c2, 0x4cc, 2), (0x4ce, 0x4cf, 1), (0x4d1, 0x52f, 2), (0x560, 0x588, 1), (0x10d0, 0x10fa, 1),
  (0x10fc, 0x10ff, 1), (0x13f8, 0x13fd, 1), (0x1c80, 0x1c88, 1), (0x1c8a, 0x1c8a, 1),
  (0x1d00, 0x1dbf, 1), (0x1e01, 0x1e93, 2), (0x1e95, 0x1e9d, 1), (0x1e9f, 0x1efd, 2),
  (0x1eff, 0x1f07, 1), (0x1f10, 0x1f15, 1), (0x1f20, 0x1f27, 1), (0x1f30, 0x1f37, 1),
  (0x1f40, 0x1f45, 1), (0x1f50, 0x1f57, 1), (0x1f60, 0x1f67, 1), (0x1f70, 0x1f7d, 1),
  (0x1f80, 0x1f87, 1), (0x1f90, 0x1f97, 1), (0x1fa0, 0x1fa7, 1), (0x1fb0, 0x1fb4, 1),
  (0x1fb6, 0x1fb7, 1), (0x1fbe, 0x1fbe, 1), (0x1fc2, 0x1fc4, 1), (0x1fc6, 0x1fc7, 1),
  (0x1fd0, 0x1fd3, 1), (0x1fd6, 0x1fd7, 1), (0x1fe0, 0x1fe7, 1), (0x1ff2, 0x1ff4, 1),
  (0x1ff6, 0x1ff7, 1), (0x2071, 0x2071, 1), (0x207f, 0x207f, 1), (0x2090, 0x209c, 1),
  (0x210a, 0x210a, 1), (0x210e, 0x210f, 1), (0x2113, 0x2113, 1), (0x212f, 0x212f, 1),
  (0x2134, 0x2134, 1), (0x2139, 0x2139, 1), (0x213c, 0x213d, 1), (0x2146, 0x2149, 1),
  (0x214e, 0x214e, 1), (0x2170, 0x217f, 1), (0x2184, 0x2184, 1), (0x24d0, 0x24e9, 1),
  (0x2c30, 0x2c5f, 1), (0x2c61, 0x2c61, 1), (0x2c65, 0x2c66, 1), (0x2c68, 0x2c6c, 2),
  (0x2c71, 0x2c71, 1), (0x2c73, 0x2c74, 1), (0x2c76, 0x2c7d, 1), (0x2c81, 0x2ce1, 2),
  (0x2ce3, 0x2ce4, 1), (0x2cec, 0x2cee, 2), (0x2cf3, 0x2cf3, 1), (0x2d00, 0x2d25, 1),
  (0x2d27, 0x2d27, 1), (0x2d2d, 0x2d2d, 1), (0xa641, 0xa66d, 2), (0xa681, 0xa699, 2),
  (0xa69b, 0xa69d, 1), (0xa723, 0xa72d, 2), (0xa72f, 0xa731, 1), (0xa733, 0xa76d, 2),
  (0xa76f, 0xa778, 1), (0xa77a, 0xa77c, 2), (0xa77f, 0xa787, 2), (0xa78c, 0xa78e, 2),
  (0xa791, 0xa791, 1), (0xa793, 0xa795, 1), (0xa797, 0xa7a9, 2), (0xa7af, 0xa7af, 1),
  (0xa7b5, 0xa7c3, 2), (0xa7c8, 0xa7ca, 2), (0xa7cd, 0xa7db, 2), (0xa7f1, 0xa7f4, 1),
  (0xa7f6, 0xa7f6, 1), (0xa7f8, 0xa7fa, 1), (0xab30, 0xab5a, 1), (0xab5c, 0xab69, 1),
  (0xab70, 0xabbf, 1), (0xfb00, 0xfb06, 1), (0xfb13, 0xfb17, 1), (0xff41, 0xff5a, 1),
  (0x10428, 0x1044f, 1), (0x104d8, 0x104fb, 1), (0x10597, 0x105a1, 1), (0x105a3, 0x105b1, 1),
  (0x105b3, 0x105b9, 1), (0x105bb, 0x105bc, 1), (0x10780, 0x10780, 1), (0x10783, 0x10785, 1),
  (0x10787, 0x107b0, 1), (0x107b2, 0x107ba, 1), (0x10cc0, 0x10cf2, 1), (0x10d70, 0x10d85, 1),
  (0x118c0, 0x118df, 1), (0x16e60, 0x16e7f, 1), (0x16ebb, 0x16ed3, 1), (0x1d41a, 0x1d433, 1),
  (0x1d44e, 0x1d454, 1), (0x1d456, 0x1d467, 1), (0x1d482, 0x1d49b, 1), (0x1d4b6, 0x1d4b9, 1),
  (0x1d4bb, 0x1d4bb, 1), (0x1d4bd, 0x1d4c3, 1), (0x1d4c5, 0x1d4cf, 1), (0x1d4ea, 0x1d503, 1),
  (0x1d51e, 0x1d537, 1), (0x1d552, 0x1d56b, 1), (0x1d586, 0x1d59f, 1), (0x1d5ba, 0x1d5d3, 1),
  (0x1d5ee, 0x1d607, 1), (0x1d622, 0x1d63b, 1), (0x1d656, 0x1d66f, 1), (0x1d68a, 0x1d6a5, 1),
  (0x1d6c2, 0x1d6da, 1), (0x1d6dc, 0x1d6e1, 1), (0x1d6fc, 0x1d714, 1), (0x1d716, 0x1d71b, 1),
  (0x1d736, 0x1d74e, 1), (0x1d750, 0x1d755, 1), (0x1d770, 0x1d788, 1), (0x1d78a, 0x1d78f, 1),
  (0x1d7aa, 0x1d7c2, 1), (0x1d7c4, 0x1d7c9, 1), (0x1d7cb, 0x1d7cb, 1), (0x1df00, 0x1df09, 1),
  (0x1df0b, 0x1df1e, 1), (0x1df25, 0x1df2a, 1), (0x1e030, 0x1e06d, 1), (0x1e922, 0x1e943, 1)]

end FuzzyPath
