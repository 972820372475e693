import LinuxLab.Lib.CString
import LinuxLab.Lib.KeyedList

/-!
# wlan_utils: records and text forms

The station and access-point records of `wlan_utils.h` and the functions of
`wlan_utils.c`.  The fields `ip` of a station and `bssid` of the access point are
never read and are left out; the link to the next station is the list's own.
-/

namespace LinuxLab
namespace Wlinkd

open Lib

structure Mac where
  b0 : UInt8
  b1 : UInt8
  b2 : UInt8
  b3 : UInt8
  b4 : UInt8
  b5 : UInt8
deriving DecidableEq, Repr

/-- `MAC_ADDR_LEN`: seventeen characters and the terminator. -/
def macAddrLen : Nat := 18

def wlanNotAvailable : CString := "N/A".toList

/-- `WLAN_MODE`, the mode before the kernel has been asked. -/
def wlanMode : CString := "UNKNOWN".toList

structure ApInfo where
  iface : CString
  mode : CString
  ip : CString
  channel : CString
  up : Bool
  bandwidthMhz : Int
  phyRateMbps : Int
  rssiDbm : Int
deriving DecidableEq, Repr

structure Station where
  bssid : CString
  rssi : Int
  privPkts : Nat
  assocTime : Int
deriving DecidableEq, Repr

/-- One entry of the list that `getifaddrs` returns.  `inet` is the text of the
address when there is one and its family is `AF_INET`. -/
structure IfAddr where
  name : Option CString
  inet : Option CString
  up : Bool
deriving DecidableEq, Repr

namespace WlanUtils

/-- `wlan_utils_fill_ip_address`.  `ifaddrs` is `none` when `getifaddrs` fails. -/
def fillIpAddress (ifaddrs : Option (List IfAddr)) (ifname : CString) (info : ApInfo) : ApInfo :=
  match ifaddrs with
  | none => info
  | some l =>
    match l.find? (fun ifa => ifa.inet.isSome && ifa.name == some ifname) with
    | some { inet := some ip, up := up, .. } => { info with ip := ip, up := up }
    | _ => info

def hexDigit (n : Nat) : Char := if n < 10 then Char.ofNat (48 + n) else Char.ofNat (55 + n)

def format02X (b : UInt8) : CString := [hexDigit (b.toNat / 16), hexDigit (b.toNat % 16)]

/-- The text that `wlan_utils_format_bssid` prints. -/
def bssidText (mac : Mac) : CString :=
  format02X mac.b0 ++ ':' :: (format02X mac.b1 ++ ':' :: (format02X mac.b2 ++ ':' ::
    (format02X mac.b3 ++ ':' :: (format02X mac.b4 ++ ':' :: format02X mac.b5))))

/-- `wlan_utils_format_bssid`.  A buffer that is too small stays as it is. -/
def formatBssid (mac : Mac) (buffer : CString) (size : Nat) : CString :=
  if size < macAddrLen then buffer else snprintf size (bssidText mac)

/-- `wlan_utils_format_channel`, for a buffer of `size` bytes, `size` not zero. -/
def formatChannel (freq : UInt32) (size : Nat) : CString :=
  let f := freq.toNat
  snprintf size <|
    if f = 2484 then "CH 14".toList
    else if 2412 ≤ f ∧ f ≤ 2472 then "CH ".toList ++ formatUnsigned ((f - 2407) / 5)
    else if 5000 ≤ f ∧ f ≤ 5895 then "CH ".toList ++ formatUnsigned ((f - 5000) / 5)
    else formatUnsigned f ++ " MHz".toList

/-- `wlan_utils_find_sta`.  A missing array is `none`. -/
def findSta (bssid : CString) (bssids : Option (List CString)) (count : Int) : Bool :=
  match bssids with
  | none => false
  | some array => if count ≤ 0 then false else (array.take count.toNat).any (fun b => bssid == b)

/-! ## The text of an address -/

theorem hexDigit_inj : ∀ m < 16, ∀ n < 16, hexDigit m = hexDigit n → m = n := by
  decide

theorem hexDigit_upper : ∀ n < 16, (hexDigit n).isDigit = true ∨ (hexDigit n).isUpper = true := by
  decide

theorem format02X_inj {a b : UInt8} (h : format02X a = format02X b) : a = b := by
  have ha := a.toNat_lt
  have hb := b.toNat_lt
  simp only [format02X, List.cons.injEq, and_true] at h
  have hhigh := hexDigit_inj _ (by omega) _ (by omega) h.1
  have hlow := hexDigit_inj _ (by omega) _ (by omega) h.2
  exact UInt8.toNat_inj.mp (by omega)

theorem bssidText_length (mac : Mac) : (bssidText mac).length = 17 := rfl

/-- The text determines the six bytes: no two addresses share a string. -/
theorem bssidText_injective : Function.Injective bssidText := by
  rintro ⟨a0, a1, a2, a3, a4, a5⟩ ⟨b0, b1, b2, b3, b4, b5⟩ h
  -- The colons stand at fixed places, so equal texts have equal byte pairs.
  simp only [bssidText, format02X, List.cons_append, List.nil_append, List.cons.injEq,
    true_and, and_true] at h
  obtain ⟨h0, h0', h1, h1', h2, h2', h3, h3', h4, h4', h5, h5'⟩ := h
  have pair : ∀ {a b : UInt8}, hexDigit (a.toNat / 16) = hexDigit (b.toNat / 16) →
      hexDigit (a.toNat % 16) = hexDigit (b.toNat % 16) → a = b := by
    intro a b hhigh hlow
    exact format02X_inj (by rw [format02X, format02X, hhigh, hlow])
  rw [pair h0 h0', pair h1 h1', pair h2 h2', pair h3 h3', pair h4 h4', pair h5 h5']

theorem bssidText_upper (mac : Mac) :
    ∀ c ∈ bssidText mac, c.isDigit = true ∨ c.isUpper = true ∨ c = ':' := by
  have digits : ∀ b : UInt8, ∀ c ∈ format02X b,
      c.isDigit = true ∨ c.isUpper = true ∨ c = ':' := by
    intro b c hc
    have hb := b.toNat_lt
    simp only [format02X, List.mem_cons, List.not_mem_nil, or_false] at hc
    rcases hc with rfl | rfl
    · exact (hexDigit_upper _ (by omega)).imp_right Or.inl
    · exact (hexDigit_upper _ (by omega)).imp_right Or.inl
  intro c hc
  simp only [bssidText, List.mem_append, List.mem_cons] at hc
  rcases hc with h | rfl | h | rfl | h | rfl | h | rfl | h | rfl | h
  all_goals first | exact digits _ _ h | exact Or.inr (Or.inr rfl)

theorem formatBssid_eq (mac : Mac) (buffer : CString) :
    formatBssid mac buffer macAddrLen = bssidText mac := by
  rw [formatBssid, if_neg (Nat.lt_irrefl _), snprintf]
  exact List.take_of_length_le (Nat.le_of_eq (bssidText_length mac))

theorem strncpy_bssidText (mac : Mac) : strncpy (bssidText mac) (macAddrLen - 1) = bssidText mac :=
  List.take_of_length_le (Nat.le_of_eq (bssidText_length mac))

theorem bssidText_ne_nil (mac : Mac) : bssidText mac ≠ [] := by
  intro h
  have := bssidText_length mac
  rw [h] at this
  simp at this

end WlanUtils
end Wlinkd
end LinuxLab
