import Tun2SocksWinRT.Ipaddr6

namespace Tun2SocksWinRT

namespace Ipaddr6

/-!
# The text of an IPv6 address

`ipaddr6_print_addr` writes each group as `%x` (`hex`), the groups separated
by `':'` (`joinHex`), with the first longest run of at least two zero groups
left out for a `"::"`.  The parser reads such a text back: the digits of a
group are one loop step each (`parseLoop_hex`), the groups with their
separators a run of such steps (`parseLoop_joinHex`), and a `"::"` marks
where the zero groups go (`parseIpv6Addr_compressed`), also when it stands
for no group at all.
-/

section Digits

theorem decodeHexDigit_digitChar : ∀ d < 16, decodeHexDigit (Nat.digitChar d) = some d := by
  decide

/-- Every character of a group's text is a hex digit. -/
theorem mem_toDigits {c : Char} {n : Nat} (member : c ∈ Nat.toDigits 16 n) : ∃ d < 16, c = Nat.digitChar d := by
  induction n using Nat.strongRecOn with
  | _ n inductionHypothesis =>
      rw [Nat.toDigits_eq_if (by decide)] at member
      split_ifs at member with single
      · exact ⟨n, single, List.mem_singleton.mp member⟩
      · rcases List.mem_append.mp member with inHigh | isLast
        · exact inductionHypothesis (n / 16) (Nat.div_lt_self (by omega) (by decide)) inHigh
        · exact ⟨n % 16, Nat.mod_lt n (by decide), List.mem_singleton.mp isLast⟩

theorem decodeHexDigit_of_mem_toDigits {c : Char} {n : Nat} (member : c ∈ Nat.toDigits 16 n) :
    ∃ d, decodeHexDigit c = some d := by
  obtain ⟨d, small, rfl⟩ := mem_toDigits member
  exact ⟨d, decodeHexDigit_digitChar d small⟩

/-- One step of the loop on a hex digit: the group so far times 16, plus the digit. -/
theorem parseLoop_hexDigit {name : List Char} {s : State} {c : Char} {digit : Nat} (rest : List Char)
    (decoded : decodeHexDigit c = some digit) (fits : s.block ≤ 4095) (fitsDigit : digit ≤ 65535 - s.block * 16) :
    parseLoop name s (c :: rest) =
      parseLoop name { s with block := s.block * 16 + digit, empty := false, i := s.i + 1 } rest := by
  have notDot : c ≠ '.' := by
    rintro rfl
    simp [decodeHexDigit] at decoded
  have notColon : c ≠ ':' := by
    rintro rfl
    simp [decodeHexDigit] at decoded
  rw [parseLoop.eq_5 name s c rest notDot (fun _ isColon => absurd isColon notColon) notColon, decoded]
  simp only [if_neg (show ¬s.block > 65535 / 16 by omega), if_neg (show ¬digit > 65535 - s.block * 16 by omega)]

/-- The `%x` text of a group is read as that group, one step per digit. -/
theorem parseLoop_toDigits (name : List Char) (s : State) {n : Nat} (small : n < 65536) (fresh : s.block = 0)
    (rest : List Char) :
    parseLoop name s (Nat.toDigits 16 n ++ rest) =
      parseLoop name { s with block := n, empty := false, i := s.i + (Nat.toDigits 16 n).length } rest := by
  induction n using Nat.strongRecOn generalizing rest with
  | _ n inductionHypothesis =>
      rw [Nat.toDigits_eq_if (by decide)]
      split_ifs with single
      · -- a single digit
        rw [List.singleton_append, parseLoop_hexDigit rest (decodeHexDigit_digitChar n single) (by omega)
          (by omega)]
        simp [fresh]
      · -- the digits of `n / 16`, then the last one
        have high : n / 16 < n := Nat.div_lt_self (by omega) (by decide)
        rw [List.append_assoc, List.singleton_append, inductionHypothesis (n / 16) high (by omega),
          parseLoop_hexDigit rest (decodeHexDigit_digitChar (n % 16) (Nat.mod_lt n (by decide)))
            (by dsimp only; omega) (by dsimp only; omega)]
        simp only [List.length_append, List.length_singleton, Nat.add_assoc]
        congr 3
        omega

end Digits

section Groups

/-- Groups as `%x` texts separated by `':'`. -/
def joinHex (groups : List UInt16) : List Char :=
  List.intercalate [':'] (groups.map hex)

theorem joinHex_cons_cons (g g' : UInt16) (groups : List UInt16) :
    joinHex (g :: g' :: groups) = hex g ++ ':' :: joinHex (g' :: groups) := by
  simp [joinHex, List.intercalate_cons_cons]

/-- A group's text is not empty and starts with a hex digit. -/
theorem hex_eq_cons (g : UInt16) : ∃ c more d, hex g = c :: more ∧ decodeHexDigit c = some d := by
  cases text : hex g with
  | nil => exact absurd text Nat.toDigits_ne_nil
  | cons c more =>
      obtain ⟨d, decoded⟩ := decodeHexDigit_of_mem_toDigits (n := g.toNat) (text ▸ List.mem_cons_self)
      exact ⟨c, more, d, rfl, decoded⟩

theorem joinHex_cons_append (g : UInt16) (groups : List UInt16) (rest : List Char) :
    ∃ c more d, joinHex (g :: groups) ++ rest = c :: more ∧ decodeHexDigit c = some d := by
  obtain ⟨c, more, d, text, decoded⟩ := hex_eq_cons g
  cases groups with
  | nil => exact ⟨c, more ++ rest, d, by simp [joinHex, text], decoded⟩
  | cons g' groups => exact ⟨c, more ++ ':' :: joinHex (g' :: groups) ++ rest, d, by simp [joinHex_cons_cons, text], decoded⟩

/-- The loop at a `':'` that ends a group and is not doubled: the group is written. -/
theorem parseLoop_colon {name : List Char} {s : State} {rest : List Char} (single : ∀ more, rest ≠ ':' :: more)
    (started : 0 < s.i) (read : s.empty = false) (room : s.blocks.length ≠ 7) :
    parseLoop name s (':' :: rest) =
      parseLoop name { s with blocks := s.blocks ++ [s.block.toUInt16], block := 0, empty := true, i := s.i + 1 }
        rest := by
  rw [parseLoop.eq_4 name s rest single]
  simp [colon, started, read, room]

/--
The groups of a text with their separators, read from a group's start: all
but the last are written, the last is the group being read.
-/
theorem parseLoop_joinHex (name : List Char) (s : State) (g : UInt16) (groups : List UInt16) (rest : List Char)
    (fresh : s.block = 0) (room : s.blocks.length + groups.length ≤ 7) :
    parseLoop name s (joinHex (g :: groups) ++ rest) =
      parseLoop name
        { s with
          blocks := s.blocks ++ (g :: groups).dropLast
          block := ((g :: groups).getLast (List.cons_ne_nil g groups)).toNat
          empty := false
          i := s.i + (joinHex (g :: groups)).length }
        rest := by
  induction groups generalizing g s with
  | nil =>
      rw [show joinHex [g] = hex g by simp [joinHex], hex, parseLoop_toDigits name s (UInt16.toNat_lt g) fresh]
      simp
  | cons g' groups inductionHypothesis =>
      -- the first group, the `':'` after it, then the others
      obtain ⟨c, more, d, next, decoded⟩ := joinHex_cons_append g' groups rest
      have notColon : c ≠ ':' := by
        rintro rfl
        simp [decodeHexDigit] at decoded
      have digitsPos : 0 < (Nat.toDigits 16 g.toNat).length := List.length_pos_of_ne_nil Nat.toDigits_ne_nil
      have roomHere : s.blocks.length ≠ 7 := by
        simp only [List.length_cons] at room
        omega
      rw [joinHex_cons_cons, List.append_assoc, List.cons_append, hex,
        parseLoop_toDigits name s (UInt16.toNat_lt g) fresh, parseLoop_colon (by simp [next, notColon])
          (by dsimp only; omega) (by rfl) (by exact roomHere),
        inductionHypothesis _ _ rfl (by simp only [List.length_append, List.length_cons, List.length_nil] at room ⊢; omega)]
      -- the same state, counted two ways
      congr 1
      simp only [State.mk.injEq, List.dropLast_cons_cons, List.getLast_cons_cons, UInt16.ofNat_toNat,
        List.append_assoc, List.singleton_append, List.length_append, List.length_cons, true_and]
      omega

theorem joinHex_ne_nil (g : UInt16) (groups : List UInt16) : joinHex (g :: groups) ≠ [] := by
  obtain ⟨c, more, _, text, _⟩ := joinHex_cons_append g groups []
  rw [List.append_nil] at text
  simp [text]

/-- The branch of the loop at a first `"::"` after a group: the group is written and the place marked. -/
theorem colon_double {s : State} (started : 0 < s.i) (read : s.empty = false) (room : s.blocks.length ≠ 7)
    (first : s.compressPos = none) :
    colon s true =
      some
        { s with
          blocks := s.blocks ++ [s.block.toUInt16]
          compressPos := some (s.blocks.length + 1)
          block := 0
          empty := true } := by
  simp [colon, started, read, room, first]

theorem parseLoop_doubleColon {name : List Char} {s s' : State} (rest : List Char) (marked : colon s true = some s') :
    parseLoop name s (':' :: ':' :: rest) = parseLoop name { s' with i := s'.i + 2 } rest := by
  rw [parseLoop.eq_3, marked]

/-- Eight groups and no `"::"` are taken as they are. -/
theorem ipv4Done_none {blocks : List UInt16} (eight : blocks.length = 8) : ipv4Done blocks none = .accepted blocks := by
  simp [ipv4Done, eight]

/-- With a `"::"` after the groups {front}, the groups after it go to the end and zeros between. -/
theorem ipv4Done_some (front rear : List UInt16) :
    ipv4Done (front ++ rear) (some front.length) =
      .accepted (front ++ List.replicate (8 - rear.length - front.length) 0 ++ rear) := by
  simp [ipv4Done]

/-- After a `"::"`, the rest of a text read to its end: the groups go to the end, zeros between. -/
theorem parseLoop_rear (name : List Char) (s : State) (rear : List UInt16) (fresh : s.block = 0)
    (blank : s.empty = true) (marked : s.compressPos = some s.blocks.length)
    (room : s.blocks.length + rear.length ≤ 8) :
    parseLoop name s (joinHex rear) =
      .accepted (s.blocks ++ List.replicate (8 - rear.length - s.blocks.length) 0 ++ rear) := by
  cases rear with
  | nil =>
      rw [show joinHex [] = [] from rfl, parseLoop.eq_1]
      simpa [finish, blank, marked] using ipv4Done_some s.blocks []
  | cons g groups =>
      have whole := parseLoop_joinHex name s g groups [] fresh (by simp only [List.length_cons] at room; omega)
      rw [List.append_nil] at whole
      rw [whole, parseLoop.eq_1]
      simpa [finish, marked, List.dropLast_append_getLast] using ipv4Done_some s.blocks (g :: groups)

end Groups

section Bounds

/-- What the parser may do with a name: reject it, or accept eight groups; never read before it. -/
def Outcome.WellFormed : Outcome → Prop
  | .accepted groups => groups.length = 8
  | .rejected => True
  | .outOfBounds => False

instance : DecidablePred Outcome.WellFormed := fun outcome => by
  cases outcome <;> unfold Outcome.WellFormed <;> infer_instance

/-- Groups written after the mark keep it among the groups. -/
theorem marked_append {blocks : List UInt16} {compressPos : Option Nat}
    (marked : ∀ c, compressPos = some c → c ≤ blocks.length) (more : List UInt16) :
    ∀ c, compressPos = some c → c ≤ (blocks ++ more).length := fun c isMark => by
  have := marked c isMark
  simp only [List.length_append]
  omega

/-- `ipv4_done` fills eight groups when at most eight are written and the mark is among them. -/
theorem ipv4Done_wellFormed {blocks : List UInt16} {compressPos : Option Nat} (short : blocks.length ≤ 8)
    (marked : ∀ c, compressPos = some c → c ≤ blocks.length) : (ipv4Done blocks compressPos).WellFormed := by
  cases compressPos with
  | none =>
      unfold ipv4Done
      split_ifs with eight
      · trivial
      · simp [Outcome.WellFormed]
        omega
  | some c =>
      have inside := marked c rfl
      simp [ipv4Done, Outcome.WellFormed]
      omega

/-- The loop of `ipv4_ending`, by induction on the characters left: only the end can accept. -/
theorem ipv4Loop_wellFormed {blocks : List UInt16} {compressPos : Option Nat} (short : blocks.length ≤ 7)
    (marked : ∀ c, compressPos = some c → c ≤ blocks.length) (v : Ipv4State) (rest : List Char) :
    (ipv4Loop blocks compressPos v rest).WellFormed := by
  induction rest generalizing v with
  | nil =>
      rw [ipv4Loop.eq_1]
      split_ifs with refused full
      · trivial
      · trivial
      · -- the two groups of the dotted quad take the place left
        exact ipv4Done_wellFormed (by simp; omega) (marked_append marked _)
  | cons c rest inductionHypothesis =>
      by_cases dot : c = '.'
      · subst dot
        rw [ipv4Loop.eq_2]
        split_ifs
        · trivial
        · exact inductionHypothesis _
      · rw [ipv4Loop.eq_3 _ _ _ _ _ dot]
        split
        · trivial
        · split
          · trivial
          · split_ifs
            · trivial
            · trivial
            · exact inductionHypothesis _

/-- The walk back stops within the name when a `':'` lies before {i}. -/
theorem rewind_ne_none {name : List Char} {i : Nat} (colonBefore : ∃ j < i, name[j]? = some ':') :
    rewind name i ≠ none := by
  induction i with
  | zero =>
      obtain ⟨j, below, _⟩ := colonBefore
      omega
  | succ i inductionHypothesis =>
      rw [rewind]
      split_ifs with here
      · simp
      · obtain ⟨j, below, isColon⟩ := colonBefore
        have notHere : j ≠ i := by
          rintro rfl
          exact here isColon
        exact inductionHypothesis ⟨j, by omega, isColon⟩

/-- The counters the loop keeps: at most seven groups written, the mark among them. -/
structure Counted (s : State) : Prop where
  short : s.blocks.length ≤ 7
  marked : ∀ c, s.compressPos = some c → c ≤ s.blocks.length

/--
The invariant of the loop of `ipaddr6_parse_ipv6_addr`: the characters left
are the name from {i} on, and once a group is written or a `"::"` read a
`':'` lies before {i}, where the walk back of `ipv4_ending` stops.
-/
structure LoopInv (name : List Char) (s : State) (rest : List Char) : Prop extends Counted s where
  suffix : name.drop s.i = rest
  colonBefore : s.blocks ≠ [] ∨ s.compressPos ≠ none → ∃ j < s.i, name[j]? = some ':'

theorem LoopInv.init (name : List Char) : LoopInv name State.init name where
  short := by simp [State.init]
  marked := by simp [State.init]
  suffix := rfl
  colonBefore := by simp [State.init]

/-- The colon branch keeps the counters and does not move {i}. -/
theorem colon_counted {s s' : State} {isDouble : Bool} (counted : Counted s) (step : colon s isDouble = some s') :
    Counted s' ∧ s'.i = s.i := by
  have short := counted.short
  unfold colon at step
  split_ifs at step <;> simp at step
  · -- a group written, then the `"::"` after it marked
    obtain ⟨-, rfl⟩ := step
    exact ⟨⟨by simp; omega, by simp⟩, rfl⟩
  · -- a group written before a single `':'`
    subst step
    exact ⟨⟨by simp; omega, marked_append counted.marked _⟩, rfl⟩
  · -- a `"::"` opening the name
    obtain ⟨-, rfl⟩ := step
    exact ⟨⟨short, by simp⟩, rfl⟩

/-- After the colon branch at {i}, the `':'` read lies before the new {i}. -/
theorem LoopInv.colon (read : List Char) {name : List Char} {s s' : State} {isDouble : Bool} {rest : List Char}
    (inv : LoopInv name s (':' :: read ++ rest)) (step : colon s isDouble = some s') :
    LoopInv name { s' with i := s'.i + (read.length + 1) } rest := by
  obtain ⟨counted, moved⟩ := colon_counted inv.toCounted step
  have here : name[s.i]? = some ':' := by
    rw [← List.head?_drop, inv.suffix]
    rfl
  exact {
    short := counted.short
    marked := counted.marked
    suffix := by
      rw [moved, Nat.add_comm read.length 1, ← Nat.add_assoc, ← List.drop_drop, ← List.drop_drop, inv.suffix]
      simp
    colonBefore := fun _ => ⟨s.i, by dsimp only; omega, here⟩ }

/-- A hex digit moves {i} on and leaves the written groups alone. -/
theorem LoopInv.digit {name : List Char} {s : State} {c : Char} {rest : List Char} (inv : LoopInv name s (c :: rest))
    (block : Nat) : LoopInv name { s with block := block, empty := false, i := s.i + 1 } rest where
  short := inv.short
  marked := inv.marked
  suffix := by rw [← List.tail_drop, inv.suffix]; rfl
  colonBefore := fun written => by
    obtain ⟨j, below, isColon⟩ := inv.colonBefore written
    exact ⟨j, by dsimp only; omega, isColon⟩

theorem finish_wellFormed {s : State} (counted : Counted s) : (finish s).WellFormed := by
  have short := counted.short
  unfold finish
  split_ifs
  · trivial
  · exact ipv4Done_wellFormed (by omega) counted.marked
  · exact ipv4Done_wellFormed (by simp; omega) (marked_append counted.marked _)

theorem ipv4Ending_wellFormed {name : List Char} {s : State} (counted : Counted s)
    (colonBefore : s.blocks ≠ [] ∨ s.compressPos ≠ none → ∃ j < s.i, name[j]? = some ':') :
    (ipv4Ending name s).WellFormed := by
  unfold ipv4Ending
  split_ifs with refused
  · trivial
  · have started : s.blocks ≠ [] ∨ s.compressPos ≠ none := by
      by_contra neither
      simp only [ne_eq, not_or, not_not] at neither
      exact refused (Or.inr ⟨by simp [neither.1], neither.2⟩)
    obtain ⟨i, found⟩ := Option.ne_none_iff_exists'.mp (rewind_ne_none (colonBefore started))
    rw [found]
    exact ipv4Loop_wellFormed counted.short counted.marked _ _

/-- The loop, by induction along its own recursion: each branch rejects, ends, or keeps `LoopInv`. -/
theorem parseLoop_wellFormed (name : List Char) (s : State) (rest : List Char) (inv : LoopInv name s rest) :
    (parseLoop name s rest).WellFormed := by
  fun_induction parseLoop name s rest with
  | case1 s => exact finish_wellFormed inv.toCounted
  | case2 s tail => exact ipv4Ending_wellFormed inv.toCounted inv.colonBefore
  | case3 s rest refused => trivial
  | case4 s rest s' step inductionHypothesis => exact inductionHypothesis (LoopInv.colon [':'] inv step)
  | case5 s rest single refused => trivial
  | case6 s rest single s' step inductionHypothesis => exact inductionHypothesis (LoopInv.colon [] inv step)
  | case7 s c rest notDot notDouble notColon undecoded => trivial
  | case8 s c rest notDot notDouble notColon digit decoded big => trivial
  | case9 s c rest notDot notDouble notColon digit decoded small big => trivial
  | case10 s c rest notDot notDouble notColon digit decoded small fits inductionHypothesis =>
      exact inductionHypothesis (inv.digit _)

/-- Every name is rejected or read as eight groups, and the walk back never leaves the name. -/
theorem parseIpv6Addr_wellFormed (name : List Char) : (parseIpv6Addr name).WellFormed :=
  parseLoop_wellFormed name State.init name (LoopInv.init name)

example : parseIpv6Addr "::ffff:1.2.3.4".toList = .accepted [0, 0, 0, 0, 0, 0xffff, 0x102, 0x304] := by
  decide

end Bounds

section RoundTrip

/-- Eight groups written out are read back. -/
theorem parseIpv6Addr_joinHex (groups : List UInt16) (eight : groups.length = 8) :
    parseIpv6Addr (joinHex groups) = .accepted groups := by
  cases groups with
  | nil => simp at eight
  | cons g rest =>
      have whole := parseLoop_joinHex (joinHex (g :: rest)) State.init g rest [] rfl
        (by simp only [List.length_cons] at eight; simp [State.init]; omega)
      rw [List.append_nil] at whole
      rw [parseIpv6Addr, whole, parseLoop.eq_1]
      simpa [finish, State.init, List.dropLast_append_getLast] using ipv4Done_none eight

/--
A text with a `"::"` between the groups {front} and {rear} is read as the
groups with zeros between them, as many as make eight.
-/
theorem parseIpv6Addr_compressed (front rear : List UInt16) (frontRoom : front.length ≤ 7)
    (fits : front.length + rear.length ≤ 8) :
    parseIpv6Addr (joinHex front ++ ':' :: ':' :: joinHex rear) =
      .accepted (front ++ List.replicate (8 - rear.length - front.length) 0 ++ rear) := by
  cases front with
  | nil =>
      -- the `"::"` opens the name: nothing is written, the mark is at 0
      rw [parseIpv6Addr, show joinHex [] = [] from rfl, List.nil_append,
        parseLoop_doubleColon _ (show colon State.init true = some { State.init with compressPos := some 0 } by rfl),
        parseLoop_rear _ _ rear (by rfl) (by rfl) (by rfl) (by simpa [State.init] using fits)]
      simp [State.init]
  | cons g groups =>
      -- the groups before the `"::"`, the group the `"::"` ends, then the groups after it
      have started : 0 < (joinHex (g :: groups)).length := List.length_pos_of_ne_nil (joinHex_ne_nil g groups)
      have short : groups.length + 1 ≤ 7 := frontRoom
      have room : groups.length + 1 + rear.length ≤ 8 := fits
      rw [parseIpv6Addr, parseLoop_joinHex _ State.init g groups _ rfl (by simp [State.init]; omega),
        parseLoop_doubleColon _ (colon_double (by simpa [State.init] using started) (by rfl)
          (by simp [State.init]; omega) (by rfl)),
        parseLoop_rear _ _ rear (by rfl) (by rfl) (by simp [State.init]) (by simp [State.init]; omega)]
      simp [State.init, List.dropLast_append_getLast]

/--
A `"::"` is read also where it stands for no group at all: with eight groups
around it the text is taken as those eight groups.
-/
theorem parseIpv6Addr_accepts_empty_gap (front rear : List UInt16) (frontRoom : front.length ≤ 7)
    (eight : front.length + rear.length = 8) :
    parseIpv6Addr (joinHex front ++ ':' :: ':' :: joinHex rear) = .accepted (front ++ rear) := by
  rw [parseIpv6Addr_compressed front rear frontRoom (by omega),
    show 8 - rear.length - front.length = 0 by omega, List.replicate_zero, List.append_nil]

theorem parseIpv6Addr_accepts_empty_gap_leading :
    ([] : List UInt16).length ≤ 7 ∧ ([] : List UInt16).length + [1, 2, 3, 4, 5, 6, 7, 8].length = 8 ∧
      parseIpv6Addr "::1:2:3:4:5:6:7:8".toList = .accepted [1, 2, 3, 4, 5, 6, 7, 8] := by
  have accepted := parseIpv6Addr_accepts_empty_gap [] [1, 2, 3, 4, 5, 6, 7, 8] (by decide) (by decide)
  have text : joinHex [] ++ ':' :: ':' :: joinHex [1, 2, 3, 4, 5, 6, 7, 8] = "::1:2:3:4:5:6:7:8".toList := by
    decide
  exact ⟨by decide, by decide, text ▸ accepted⟩

end RoundTrip

end Ipaddr6

end Tun2SocksWinRT
