import RtmpRelay.Bytes

/-!
Cutting a byte string into pieces of one size. Nothing is lost, all pieces but the last are full, and the
last is empty only if everything is.
-/

namespace RtmpRelay.Bytes

def piecesFrom (size : Nat) : Bytes → Bytes → Array Bytes → List Bytes
  | [], rest, cut => (cut.push rest).toList
  | _ :: rounds, rest, cut =>
    match rest.split? size with
    | some (piece, next :: more) => piecesFrom size rounds (next :: more) (cut.push piece)
    | _ => (cut.push rest).toList

/-- Pieces of so many bytes, the last one of what remains. Even the empty string has one piece. A piece has
a byte at least, so there are no more rounds than bytes. -/
def pieces (size : Nat) (bytes : Bytes) : List Bytes :=
  piecesFrom size bytes bytes #[]

private theorem piecesFrom_short {size : Nat} {rest : Bytes} (short : rest.length ≤ size) (rounds : Bytes)
    (cut : Array Bytes) : piecesFrom size rounds rest cut = cut.toList ++ [rest] := by
  cases rounds with
  | nil => simp [piecesFrom]
  | cons round rounds =>
    rw [piecesFrom, split?_eq]
    split
    · next piece next more found =>
      split at found
      · simp only [Option.some.injEq, Prod.mk.injEq] at found
        have left := congrArg List.length found.2
        simp at left
        omega
      · simp at found
    · simp

private theorem piecesFrom_long {size : Nat} {rest : Bytes} (long : size < rest.length) (round : UInt8)
    (rounds : Bytes) (cut : Array Bytes) :
    piecesFrom size (round :: rounds) rest cut =
      piecesFrom size rounds (rest.drop size) (cut.push (rest.take size)) := by
  rw [piecesFrom, split?_eq, if_pos (by omega)]
  cases left : rest.drop size with
  | nil => simp at left; omega
  | cons next more => rfl

private theorem piecesFrom_cut (size : Nat) (rounds : Bytes) :
    ∀ (rest : Bytes) (cut : Array Bytes),
      piecesFrom size rounds rest cut = cut.toList ++ piecesFrom size rounds rest #[] := by
  induction rounds with
  | nil => simp [piecesFrom]
  | cons round rounds ih =>
    intro rest cut
    by_cases short : rest.length ≤ size
    · simp [piecesFrom_short short]
    · rw [piecesFrom_long (by omega), piecesFrom_long (by omega), ih, ih _ (#[].push _)]
      simp

private theorem piecesFrom_rounds {size : Nat} (positive : 0 < size) (rounds : Bytes) :
    ∀ others rest : Bytes, rest.length ≤ rounds.length → rest.length ≤ others.length →
      piecesFrom size rounds rest #[] = piecesFrom size others rest #[] := by
  induction rounds with
  | nil =>
    intro others rest enough also
    have short : rest.length ≤ size := by simp at enough; simp [enough]
    simp [piecesFrom_short short]
  | cons round rounds ih =>
    intro others rest enough also
    by_cases short : rest.length ≤ size
    · simp [piecesFrom_short short]
    · cases others with
      | nil => simp at also; simp [also] at short
      | cons other others =>
        simp only [List.length_cons] at enough also
        have smaller : (rest.drop size).length + size = rest.length := by simp; omega
        rw [piecesFrom_long (by omega), piecesFrom_long (by omega), piecesFrom_cut,
          piecesFrom_cut size others, ih others (rest.drop size) (by omega) (by omega)]

theorem pieces_of_le {size : Nat} {bytes : Bytes} (short : bytes.length ≤ size) : pieces size bytes = [bytes] := by
  simp [pieces, piecesFrom_short short]

theorem pieces_of_lt {size : Nat} {bytes : Bytes} (positive : 0 < size) (long : size < bytes.length) :
    pieces size bytes = bytes.take size :: pieces size (bytes.drop size) := by
  cases bytes with
  | nil => simp at long
  | cons byte rest =>
    have smaller : ((byte :: rest).drop size).length + size = rest.length + 1 := by simp at long; simp; omega
    rw [pieces, piecesFrom_long long, piecesFrom_cut,
      piecesFrom_rounds positive rest ((byte :: rest).drop size) _ (by omega) (Nat.le_refl _)]
    rfl

theorem pieces_eq_cons {size : Nat} (positive : 0 < size) (bytes : Bytes) :
    pieces size bytes =
      bytes.take size :: if bytes.length ≤ size then [] else pieces size (bytes.drop size) := by
  split
  next short => rw [pieces_of_le short, List.take_of_length_le short]
  next long => exact pieces_of_lt positive (by omega)

theorem length_pieces {size : Nat} (positive : 0 < size) (bytes : Bytes) :
    (pieces size bytes).length = max 1 ((bytes.length + size - 1) / size) := by
  rw [pieces_eq_cons positive]
  split
  next short =>
    have one : (bytes.length + size - 1) / size ≤ 1 :=
      Nat.le_of_lt_succ (Nat.div_lt_of_lt_mul (by omega))
    exact (Nat.max_eq_left one).symm
  next long =>
    have fewer : (bytes.drop size).length + size = bytes.length := by rw [List.length_drop]; omega
    have step : (bytes.length + size - 1) / size = ((bytes.drop size).length + size - 1) / size + 1 := by
      rw [← Nat.add_div_right _ positive]
      congr 1
      omega
    have some : 1 ≤ ((bytes.drop size).length + size - 1) / size := (Nat.le_div_iff_mul_le positive).mpr (by omega)
    rw [List.length_cons, length_pieces positive (bytes.drop size), step]
    omega
termination_by bytes.length

theorem flatten_pieces (size : Nat) (bytes : Bytes) : (pieces size bytes).flatten = bytes := by
  suffices general : ∀ (rounds rest : Bytes), (piecesFrom size rounds rest #[]).flatten = rest from
    general bytes bytes
  intro rounds
  induction rounds with
  | nil => simp [piecesFrom]
  | cons round rounds ih =>
    intro rest
    by_cases short : rest.length ≤ size
    · simp [piecesFrom_short short]
    · rw [piecesFrom_long (by omega), piecesFrom_cut]
      simp [ih]

end RtmpRelay.Bytes
