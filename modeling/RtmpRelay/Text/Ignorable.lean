import RtmpRelay.Text.CodePoints

/-!
Characters that leave no trace where there is no way to show them, such as fillers and joiners: the property
Default_Ignorable_Code_Point of Unicode 17.0.
-/

namespace RtmpRelay.Text

def ignorable : CodePoints :=
  [
    (0xad, 0xad), (0x34f, 0x34f), (0x61c, 0x61c), (0x115f, 0x1160), (0x17b4, 0x17b5), (0x180b, 0x180f),
    (0x200b, 0x200f), (0x202a, 0x202e), (0x2060, 0x206f), (0x3164, 0x3164), (0xfe00, 0xfe0f),
    (0xfeff, 0xfeff), (0xffa0, 0xffa0), (0xfff0, 0xfff8), (0x1bca0, 0x1bca3), (0x1d173, 0x1d17a),
    (0xe0000, 0xe0fff)
  ]

theorem ignorable_ascends : ignorable.ascendsFrom 0 = true := by
  decide +kernel

def ignorableTree : CodePoints.SearchTree :=
  .ofTable ignorable

theorem ignorableTree_ranges : ignorableTree.ranges = ignorable := by
  decide +kernel

def isIgnorable (char : Char) : Bool :=
  ignorableTree.contains char

theorem isIgnorable_eq (char : Char) : isIgnorable char = ignorable.contains char := by
  have ascending : ignorableTree.ranges.ascendsFrom 0 = true := ignorableTree_ranges ▸ ignorable_ascends
  rw [isIgnorable, CodePoints.SearchTree.contains_eq ascending, ignorableTree_ranges]

end RtmpRelay.Text
