import SourceFilter.Address

/-!
# Address prefixes

A prefix names the addresses that agree with its network on the leading bits. The remaining bits
of the network are zero, so two prefixes that name the same addresses at the same length are
equal.
-/

namespace SourceFilter

/-- The address whose first `length` bits are one; a length above 32 counts as 32. -/
def netmask (length : Nat) : Address := BitVec.allOnes 32 <<< (32 - length)

/-- Masking twice is masking once. -/
theorem and_netmask_and_netmask (a : Address) (length : Nat) :
    a &&& netmask length &&& netmask length = a &&& netmask length := by
  rw [BitVec.and_assoc, BitVec.and_self]

/-- Whether an address agrees with a network on the leading `length` bits. -/
def inNetwork (network : Address) (length : Nat) (a : Address) : Bool :=
  a &&& netmask length == network &&& netmask length

/-- A network with the number of its leading bits that count. -/
structure Prefix where
  /-- The common leading bits, with zeros behind them. -/
  network : Address
  /-- How many leading bits count. -/
  length : Fin 33
  /-- The bits behind the leading ones are zero. -/
  masked : network &&& netmask length = network
  deriving DecidableEq, Repr

namespace Prefix

/-- The prefix of the given length around an address. -/
def around (a : Address) (length : Fin 33) : Prefix :=
  ⟨a &&& netmask length, length, and_netmask_and_netmask a length⟩

/-- The prefix of the given length around an address, if there is such a length. -/
def of? (a : Address) (length : Nat) : Option Prefix :=
  if h : length < 33 then some (around a ⟨length, h⟩) else none

/-- The prefix that holds a single address. -/
def host (a : Address) : Prefix := around a 32

/-- A prefix is the one of its length around its network. -/
theorem around_network (p : Prefix) : around p.network p.length = p := by
  cases p with
  | mk network length masked => simp [around, masked]

/-- Whether the prefix holds an address. -/
def holds (p : Prefix) (a : Address) : Bool := inNetwork p.network p.length a

/-- The position of a prefix in the order by network, then length. -/
def rank (p : Prefix) : Nat := p.network.toNat * 64 + p.length

/-- The number under which tables file a prefix: its length above the bits of its network. -/
def key (p : Prefix) : Nat := p.length * 4294967296 + p.network.toNat

/-- The prefix filed under a number. -/
def ofKey? (key : Nat) : Option Prefix :=
  of? (BitVec.ofNat 32 key) (key / 4294967296 % 256)

/-- The order tells prefixes apart. -/
theorem rank_injective {p q : Prefix} (h : p.rank = q.rank) : p = q := by
  obtain ⟨n, l, hp⟩ := p
  obtain ⟨m, k, hq⟩ := q
  simp only [rank] at h
  have hn : n.toNat = m.toNat := by omega
  have hl : l = k := by omega
  have hn : n = m := BitVec.eq_of_toNat_eq hn
  subst hn hl
  rfl

/-- A prefix is found again under its number. -/
theorem ofKey?_key (p : Prefix) : ofKey? p.key = some p := by
  have hn := p.network.isLt
  have hl := p.length.isLt
  have h : p.key / 4294967296 % 256 = p.length := by simp only [key]; omega
  have hb : BitVec.ofNat 32 p.key = p.network := by
    apply BitVec.eq_of_toNat_eq
    simp only [key, BitVec.toNat_ofNat]
    omega
  rw [ofKey?, of?, h, hb, dif_pos hl]
  exact congrArg some (around_network p)

/-- The prefix as its network, a slash and its length, as characters. -/
def chars (p : Prefix) : List Char := p.network.chars ++ '/' :: Text.digits p.length

/-- The prefix as its network, a slash and its length. -/
def text (p : Prefix) : String := String.ofList p.chars

end Prefix
end SourceFilter
