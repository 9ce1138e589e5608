import Forgetty.Core.Basic
import Forgetty.Core.Rgba

/-! The JSON-RPC messages of the socket: values, requests, responses and the
error codes, with the readings the handlers make of request parameters. -/

namespace Forgetty

/-- JSON values. Numbers are kept the way the parser classifies them. -/
inductive Json where
  | null
  | bool (b : Bool)
  | posInt (n : ℕ)
  | negInt (n : ℕ)
  | float (x : ℚ)
  | str (s : String)
  | arr (elems : List Json)
  | obj (fields : List (String × Json))

namespace Json

/-- The field of an object; nothing on other values. -/
def get (key : String) : Json → Option Json
  | obj fields => (fields.find? (·.1 = key)).map (·.2)
  | _ => none

def asStr : Json → Option String
  | str s => some s
  | _ => none

def asU64 : Json → Option ℕ
  | posInt n => some n
  | _ => none

def asBool : Json → Option Bool
  | bool b => some b
  | _ => none

end Json

structure Request where
  method : String
  params : Json
  id : Option Json

structure RpcError where
  code : ℤ
  message : String

structure Response where
  result : Option Json
  error : Option RpcError
  id : Option Json

def parseErrorCode : ℤ := -32700
def invalidRequest : ℤ := -32600
def methodNotFound : ℤ := -32601
def invalidParams : ℤ := -32602
def internalError : ℤ := -32603

namespace Response

def success (id : Option Json) (result : Json) : Response :=
  { result := some result, error := none, id := id }

def failure (id : Option Json) (code : ℤ) (message : String) : Response :=
  { result := none, error := some { code := code, message := message }, id := id }

/-- `{ "ok": true }`. -/
def ok (id : Option Json) : Response := success id (.obj [("ok", .bool true)])

end Response

namespace Request

def strParam (req : Request) (key : String) : Option String := (req.params.get key).bind Json.asStr

def u64Param (req : Request) (key : String) : Option ℕ := (req.params.get key).bind Json.asU64

def boolParam (req : Request) (key : String) : Option Bool :=
  (req.params.get key).bind Json.asBool

end Request

/-! ### UUIDs in requests -/

namespace Uuid

def parseHex (cs : List Char) : Option ℕ :=
  cs.foldlM (fun acc c => (Core.hexDigit c).map (acc * 16 + ·)) 0

/-- Groups of 8, 4, 4, 4 and 12 digits between hyphens. -/
def parseHyphenated (cs : List Char) : Option ℕ :=
  if cs.length = 36 ∧ cs[8]? = some '-' ∧ cs[13]? = some '-' ∧ cs[18]? = some '-' ∧
      cs[23]? = some '-' then
    parseHex (cs.take 8 ++ (cs.drop 9).take 4 ++ (cs.drop 14).take 4 ++ (cs.drop 19).take 4 ++
      cs.drop 24)
  else none

/-- The accepted forms: 32 digits, hyphenated, and hyphenated in braces or as a URN. -/
def parseStr (s : String) : Option Uuid :=
  let cs := s.toList
  let bits :=
    if cs.length = 32 then parseHex cs
    else if cs.length = 38 ∧ cs.head? = some '\x7b' ∧ cs.getLast? = some '\x7d' then
      parseHyphenated ((cs.drop 1).dropLast)
    else if cs.length = 45 ∧ cs.take 9 = "urn:uuid:".toList then parseHyphenated (cs.drop 9)
    else parseHyphenated cs
  bits.map Uuid.mk

example : parseStr "00000000-0000-0000-0000-0000000000fF" = some ⟨255⟩ := by decide

theorem length_hexDigits (n k : ℕ) : (hexDigits n k).length = n := by
  induction n generalizing k with
  | zero => rfl
  | succ n ih => rw [hexDigits, List.length_append, ih, List.length_singleton]

/-- The digits of a number are read as that number. -/
theorem parseHex_hexDigits (n k : ℕ) : parseHex (hexDigits n k) = some (k % 16 ^ n) := by
  induction n generalizing k with
  | zero => simp [parseHex, hexDigits, Nat.mod_one]
  | succ n ih =>
    have hlow := Core.hexDigit_digitChar (k % 16) (Nat.mod_lt k (by omega))
    have hfront : (hexDigits n (k / 16)).foldlM
        (fun acc c => (Core.hexDigit c).map (acc * 16 + ·)) 0 = some (k / 16 % 16 ^ n) := ih (k / 16)
    rw [parseHex, hexDigits, List.foldlM_append, hfront, Option.bind_eq_bind, Option.bind_some,
      List.foldlM_cons, hlow, Option.map_some, Option.bind_eq_bind, Option.bind_some, List.foldlM_nil,
      Nat.pow_succ, Nat.mul_comm (16 ^ n), Nat.mod_mul, Nat.mul_comm (k / 16 % 16 ^ n), Nat.add_comm]
    rfl

/-- A group before a hyphen, and what is behind it. -/
theorem group_append {a : List Char} {n : ℕ} (ha : a.length = n) (rest : List Char) :
    (a ++ '-' :: rest)[n]? = some '-' ∧ (a ++ '-' :: rest).take n = a ∧
      (a ++ '-' :: rest).drop (n + 1) = rest := by
  subst ha
  refine ⟨by simp, List.take_left, ?_⟩
  rw [← List.drop_drop, List.drop_left]
  rfl

theorem parseHyphenated_groups {a b c d e : List Char} (ha : a.length = 8) (hb : b.length = 4)
    (hc : c.length = 4) (hd : d.length = 4) (he : e.length = 12) :
    parseHyphenated (a ++ '-' :: (b ++ '-' :: (c ++ '-' :: (d ++ '-' :: e)))) =
      parseHex (a ++ b ++ c ++ d ++ e) := by
  obtain ⟨ha1, ha2, ha3⟩ := group_append ha (b ++ '-' :: (c ++ '-' :: (d ++ '-' :: e)))
  obtain ⟨hb1, hb2, hb3⟩ := group_append hb (c ++ '-' :: (d ++ '-' :: e))
  obtain ⟨hc1, hc2, hc3⟩ := group_append hc (d ++ '-' :: e)
  obtain ⟨hd1, hd2, hd3⟩ := group_append hd e
  have hlen : (a ++ '-' :: (b ++ '-' :: (c ++ '-' :: (d ++ '-' :: e)))).length = 36 := by
    simp [ha, hb, hc, hd, he]
  set cs := a ++ '-' :: (b ++ '-' :: (c ++ '-' :: (d ++ '-' :: e))) with hcs
  have h14 : cs.drop 14 = c ++ '-' :: (d ++ '-' :: e) := by rw [← hb3, ← ha3, List.drop_drop]
  have h19 : cs.drop 19 = d ++ '-' :: e := by rw [← hc3, ← h14, List.drop_drop]
  have h24 : cs.drop 24 = e := by rw [← hd3, ← h19, List.drop_drop]
  have h13 : cs[13]? = some '-' := by rw [← hb1, ← ha3, List.getElem?_drop]
  have h18 : cs[18]? = some '-' := by rw [← hc1, ← h14, List.getElem?_drop]
  have h23 : cs[23]? = some '-' := by rw [← hd1, ← h19, List.getElem?_drop]
  rw [parseHyphenated, if_pos ⟨hlen, ha1, h13, h18, h23⟩, ha2, ha3, hb2, h14, hc2, h19, hd2, h24]

/-- A UUID is read from the way it prints. -/
theorem parseStr_toString {u : Uuid} (h : u.bits < 2 ^ 128) : parseStr (toString u) = some u := by
  set d := hexDigits 32 u.bits with hd
  have hlen : d.length = 32 := length_hexDigits 32 u.bits
  have hchars : (toString u).toList = d.take 8 ++ '-' :: ((d.drop 8).take 4 ++
      '-' :: ((d.drop 12).take 4 ++ '-' :: ((d.drop 16).take 4 ++ '-' :: d.drop 20))) := by
    change (String.ofList _).toList = _
    rw [String.toList_ofList]
    simp [hd]
  have ha : (d.take 8).length = 8 := by rw [List.length_take]; omega
  have hgroup : ∀ n ≤ 28, ((d.drop n).take 4).length = 4 := by
    intro n hn
    rw [List.length_take, List.length_drop]
    omega
  have he : (d.drop 20).length = 12 := by rw [List.length_drop]; omega
  have hgroups := parseHyphenated_groups ha (hgroup 8 (by omega)) (hgroup 12 (by omega))
    (hgroup 16 (by omega)) he
  have hnext : ∀ n, (d.drop n).take 4 ++ d.drop (n + 4) = d.drop n := by
    intro n
    rw [← List.drop_drop, List.take_append_drop]
  have hbits : parseHex d = some u.bits := by
    rw [hd, parseHex_hexDigits, Nat.mod_eq_of_lt (by omega)]
  rw [List.append_assoc, List.append_assoc, List.append_assoc, hnext 16, hnext 12, hnext 8,
    List.take_append_drop, hbits] at hgroups
  have h36 : (toString u).toList.length = 36 := by
    rw [hchars]
    simp [hlen]
  rw [parseStr]
  simp only [h36]
  rw [if_neg (by decide), if_neg (by simp), if_neg (by simp), hchars, hgroups]
  rfl

end Uuid

end Forgetty
