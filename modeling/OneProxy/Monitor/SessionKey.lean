import OneProxy.Lib.Separator
import OneProxy.Monitor.Sessions
import OneProxy.Util.Digits

/-! The text a packet's connection is looked up by: which packets have it in common. -/

namespace OneProxy.Monitor

open Tool

/-- The four numbers of an IPv4 address. -/
structure InAddr where
  first : UInt8
  second : UInt8
  third : UInt8
  fourth : UInt8
  deriving DecidableEq

/-- `inet_ntoa`. -/
def InAddr.inetNtoa (address : InAddr) : Bytes :=
  digits address.first.toNat ++ [46] ++ digits address.second.toNat ++ [46] ++
    digits address.third.toNat ++ [46] ++ digits address.fourth.toNat

/-- The address at a position of a captured frame is written in the same way. -/
theorem TaskT.inetNtoa_eq (t : TaskT) (pos : Nat) :
    t.inetNtoa pos =
      InAddr.inetNtoa ⟨t.packet pos, t.packet (pos + 1), t.packet (pos + 2), t.packet (pos + 3)⟩ :=
  rfl

/-- The two ends of a packet in its own direction. -/
structure Ends where
  srcIp : InAddr
  srcPort : UInt16
  desIp : InAddr
  desPort : UInt16
  deriving DecidableEq

namespace Ends

/-- The key of a packet between the two ends. -/
def key (ends : Ends) : TaskDataKeyT :=
  (TaskDataKeyT.mk ends.srcIp.inetNtoa ends.srcPort.toNat ends.desIp.inetNtoa ends.desPort.toNat
    []).genCmpKey

/-- The numbers between the third dot of the key and the fourth. -/
def inner (ends : Ends) : List Bytes :=
  [digits ends.srcIp.fourth.toNat, digits ends.srcPort.toNat, digits ends.desIp.first.toNat]

/-- The numbers behind the last dot of the key. -/
def outer (ends : Ends) : List Bytes :=
  [digits ends.desIp.fourth.toNat, digits ends.desPort.toNat]

/-- The numbers that stand between two dots. -/
def dotted (ends : Ends) : List UInt8 :=
  [ends.srcIp.first, ends.srcIp.second, ends.srcIp.third, ends.desIp.second, ends.desIp.third]

/-- Two pairs of ends whose dotted numbers are equal and whose other digits run on alike. -/
def RunsOnAlike (p q : Ends) : Prop :=
  p.dotted = q.dotted ∧ p.inner.flatten = q.inner.flatten ∧ p.outer.flatten = q.outer.flatten

/-- Two pairs of ends whose numbers without a dot between them have as many digits. -/
def SameBorders (p q : Ends) : Prop :=
  p.inner.map List.length = q.inner.map List.length ∧
    p.outer.map List.length = q.outer.map List.length

instance (p q : Ends) : Decidable (p.RunsOnAlike q) := by
  unfold RunsOnAlike
  infer_instance

instance (p q : Ends) : Decidable (p.SameBorders q) := by
  unfold SameBorders
  infer_instance

/-- The key with its dots. -/
theorem cmpKey_eq (ends : Ends) :
    ends.key.cmpKey = digits ends.srcIp.first.toNat ++ 46 :: (digits ends.srcIp.second.toNat ++
      46 :: (digits ends.srcIp.third.toNat ++ 46 :: (ends.inner.flatten ++
        46 :: (digits ends.desIp.second.toNat ++ 46 :: (digits ends.desIp.third.toNat ++
          46 :: ends.outer.flatten))))) := by
  simp [key, TaskDataKeyT.genCmpKey, InAddr.inetNtoa, inner, outer]

/-- No number has a dot in it. -/
theorem dot_notMem_digits (n : Nat) : (46 : UInt8) ∉ digits n := by
  intro member
  have low := (mem_digits member).1
  simp at low

/-- Nor have several of them. -/
theorem dot_notMem_inner (ends : Ends) : (46 : UInt8) ∉ ends.inner.flatten := by
  simp [inner, dot_notMem_digits]

/-- A number up to a dot is read off the text. -/
theorem number_dot {m n : UInt8} {s t : Bytes} :
    digits m.toNat ++ 46 :: s = digits n.toNat ++ 46 :: t ↔ m = n ∧ s = t := by
  rw [Separator.append_cons_inj (dot_notMem_digits _) (dot_notMem_digits _)]
  constructor
  · rintro ⟨number, rest⟩
    exact ⟨UInt8.toNat_inj.mp (digits_injective number), rest⟩
  · rintro ⟨rfl, rfl⟩
    exact ⟨rfl, rfl⟩

/-- The keys are equal exactly if the dots leave the same digits between them. -/
theorem cmpKey_eq_iff (p q : Ends) : p.key.cmpKey = q.key.cmpKey ↔ RunsOnAlike p q := by
  rw [cmpKey_eq, cmpKey_eq]
  simp only [number_dot, Separator.append_cons_inj (dot_notMem_inner p) (dot_notMem_inner q),
    RunsOnAlike, dotted, List.cons.injEq, and_true]
  tauto

/-- Numbers that run on alike with as many digits each are equal. -/
theorem RunsOnAlike.eq {p q : Ends} (alike : RunsOnAlike p q) (borders : SameBorders p q) :
    p = q := by
  obtain ⟨dots, inside, outside⟩ := alike
  have inner : p.inner = q.inner := List.eq_iff_flatten_eq.mpr ⟨inside, borders.1⟩
  have outer : p.outer = q.outer := List.eq_iff_flatten_eq.mpr ⟨outside, borders.2⟩
  -- Numbers are read back from their digits, once it is known which digits are whose.
  have octet : ∀ {m n : UInt8}, digits m.toNat = digits n.toNat → m = n :=
    fun same => UInt8.toNat_inj.mp (digits_injective same)
  have port : ∀ {m n : UInt16}, digits m.toNat = digits n.toNat → m = n :=
    fun same => UInt16.toNat_inj.mp (digits_injective same)
  obtain ⟨⟨a, b, c, d⟩, srcPort, ⟨e, f, g, k⟩, desPort⟩ := p
  obtain ⟨⟨a', b', c', d'⟩, srcPort', ⟨e', f', g', k'⟩, desPort'⟩ := q
  simp only [Ends.inner, Ends.outer, dotted, List.cons.injEq, and_true] at dots inner outer
  obtain ⟨rfl, rfl, rfl, rfl, rfl⟩ := dots
  obtain rfl := octet inner.1
  obtain rfl := port inner.2.1
  obtain rfl := octet inner.2.2
  obtain rfl := octet outer.1
  obtain rfl := port outer.2
  rfl

/-- Equal keys are of equal ends exactly if the digits that run on alike have the same borders. -/
theorem eq_of_cmpKey_iff (p q : Ends) :
    (p.key.cmpKey = q.key.cmpKey → p = q) ↔ (RunsOnAlike p q → SameBorders p q) := by
  rw [cmpKey_eq_iff]
  constructor
  · rintro injective alike
    rw [injective alike]
    exact ⟨rfl, rfl⟩
  · rintro borders alike
    exact alike.eq (borders alike)

/-- Two clients of the server on 10.0.0.9 port 3306: one on 10.0.0.1 port 1234, one on 10.0.0.11. -/
def oneClient : Ends := ⟨⟨10, 0, 0, 1⟩, 1234, ⟨10, 0, 0, 9⟩, 3306⟩

def otherClient : Ends := ⟨⟨10, 0, 0, 11⟩, 234, ⟨10, 0, 0, 9⟩, 3306⟩

/-- A packet with one byte of data for the server. -/
def request (ends : Ends) : TaskDataT :=
  ⟨ends.key, ⟨ends.desPort.toNat, []⟩, [81], 0x18, ipprotoTcp⟩

end Ends

end OneProxy.Monitor
