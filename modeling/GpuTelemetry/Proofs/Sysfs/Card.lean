import GpuTelemetry.Sysfs.Amd
import GpuTelemetry.Sysfs.Intel
import GpuTelemetry.Proofs.Sysfs.Attribute
import GpuTelemetry.Proofs.Sysfs.Tree
import Mathlib

namespace GpuTelemetry.Sysfs

open FileTree (Leads Literal SameOutside Visible)
open Text (Spells)

/-- The name is `card` and, behind blanks and perhaps a plus sign, the decimal digits of `n`. -/
def Named (name : Text) (n : ℕ) : Prop :=
  (∃ number, name = utf8 "card" ++ number ∧ Spells number false n) ∧ 45 ∉ name

/-- The number that places a card of that name: its own, or the largest word if that is smaller. -/
def Ranked (name : Text) (k : ℕ) : Prop := ∃ n, Named name n ∧ k = min n (2 ^ 64 - 1)

/-- Names as directories have them: no two are the same, and a NUL is in none. -/
structure Proper (names : List Text) : Prop where
  nodup : names.Nodup
  nul_not_mem : ∀ name ∈ names, 0 ∉ name

def devicePath (name : Text) : FileTree.Path := drmPath ++ [name] ++ [utf8 "device"]

structure CardOf (t : FileTree) (vendor : UInt32) (name : Text) : Prop where
  entry : name ∈ t.names drmPath
  named : ∃ n, Named name n
  device : t.isDirectory (devicePath name) = true
  vendor : readHexadecimal t (devicePath name ++ [utf8 "vendor"]) = some vendor

def cardAt (t : FileTree) (vendor : UInt32) (name : Text) : Card :=
  { name
    cardPath := drmPath ++ [name]
    devicePath := devicePath name
    pciVendor := vendor
    pciDevice := readHexadecimal t (devicePath name ++ [utf8 "device"]) }

def InOrder (a b : Card) : Prop := ∃ j k, Ranked a.name j ∧ Ranked b.name k ∧ j ≤ k

def Distinct (cards : List Card) : Prop :=
  ∀ a ∈ cards, ∀ b ∈ cards, ∀ k, Ranked a.name k → Ranked b.name k → a = b

structure Enumerates (t : FileTree) (vendor : UInt32) (cards : List Card) : Prop where
  name_mem_iff : ∀ name, name ∈ cards.map (·.name) ↔ CardOf t vendor name
  nodup : (cards.map (·.name)).Nodup
  eq_cardAt : ∀ card ∈ cards, card = cardAt t vendor card.name
  inOrder : cards.Pairwise InOrder

variable {t t' : FileTree} {vendor other : UInt32} {name number : Text} {n j k : ℕ} {w : UInt64}
  {card : Card} {p : FileTree.Path} {hidden : List FileTree.Path}

/-! ### Names -/

theorem startsWith_iff {s start : Text} :
    Text.startsWith s start = true ↔ ∃ rest, s = start ++ rest := by
  rw [Text.startsWith, List.isPrefixOf_iff_prefix]
  exact exists_congr fun rest => eq_comm

theorem Named.unique {m : ℕ} (h : Named name n) (h' : Named name m) : m = n := by
  obtain ⟨⟨number, rfl, hspells⟩, -⟩ := h
  obtain ⟨⟨number', heq, hspells'⟩, -⟩ := h'
  obtain rfl := List.append_cancel_left heq
  exact (hspells.unique hspells').2

theorem Ranked.unique (h : Ranked name j) (h' : Ranked name k) : k = j := by
  obtain ⟨n, hn, rfl⟩ := h
  obtain ⟨m, hm, rfl⟩ := h'
  rw [hn.unique hm]

theorem Named.startsWith (h : Named name n) : Text.startsWith name (utf8 "card") = true := by
  obtain ⟨⟨number, rfl, -⟩, -⟩ := h
  exact startsWith_iff.2 ⟨number, rfl⟩

theorem wholeNumeral_of_proper {m : Text.Numeral} (h : 0 ∉ number) :
    wholeNumeral 10 number = some m ↔ m.rest = [] ∧ Spells number m.negative m.magnitude := by
  obtain ⟨negative, n, rest⟩ := m
  rw [wholeNumeral_eq_some, Text.beforeNul_eq_self h, and_comm]
  refine and_congr_right ?_
  rintro (rfl : rest = [])
  exact ⟨Text.spells_of_readNumeral, Text.readNumeral_of_spells⟩

/-- The number is what follows `card`. -/
theorem ranked_append_iff : Ranked (utf8 "card" ++ number) k ↔
    45 ∉ number ∧ ∃ n, Spells number false n ∧ k = min n (2 ^ 64 - 1) := by
  have hcard : (45 : UInt8) ∉ utf8 "card" := by decide
  constructor
  · rintro ⟨n, ⟨⟨number', heq, hspells⟩, hminus⟩, rfl⟩
    obtain rfl := List.append_cancel_left heq
    exact ⟨fun hmem => hminus (List.mem_append_right _ hmem), n, hspells, rfl⟩
  · rintro ⟨hminus, n, hspells, rfl⟩
    refine ⟨n, ⟨⟨number, rfl, hspells⟩, ?_⟩, rfl⟩
    rw [List.mem_append, not_or]
    exact ⟨hcard, hminus⟩

/-- A name is not looked at if nothing follows `card` or if there is a hyphen. -/
theorem no_number_iff : ((utf8 "card" ++ number).length ≤ 4 || (utf8 "card" ++ number).contains 45) =
    true ↔ number = [] ∨ 45 ∈ number := by
  have hcard : (45 : UInt8) ∉ utf8 "card" := by decide
  have hfour : (utf8 "card").length = 4 := by decide
  rw [Bool.or_eq_true, decide_eq_true_eq, List.contains_iff_mem, List.mem_append, List.length_append,
    hfour, ← List.length_eq_zero_iff, or_iff_right hcard]
  exact or_congr_left (by omega)

/-- A name has a number if it is a card's, and that is the number which places the card. -/
theorem cardNumber?_iff (hstart : Text.startsWith name (utf8 "card") = true) (hnul : 0 ∉ name) :
    (cardNumber? name).map UInt64.toNat = some k ↔ Ranked name k := by
  obtain ⟨number, rfl⟩ := startsWith_iff.1 hstart
  have hnul' : 0 ∉ number := fun hmem => hnul (List.mem_append_right _ hmem)
  have hdrop : (utf8 "card" ++ number).drop 4 = number := rfl
  rw [ranked_append_iff, cardNumber?, hdrop]
  split
  · rename_i hno
    refine iff_of_false nofun ?_
    rintro ⟨hminus, n, hspells, -⟩
    rcases no_number_iff.1 hno with rfl | hmem
    · exact Text.not_spells_nil hspells
    · exact hminus hmem
  · rename_i hyes
    have hminus : 45 ∉ number := fun hmem => hyes (no_number_iff.2 (Or.inr hmem))
    rw [Option.map_map, Option.map_eq_some_iff, and_iff_right hminus]
    simp only [wholeNumeral_of_proper hnul', Function.comp_apply]
    constructor
    · rintro ⟨⟨negative, n, rest⟩, ⟨rfl, hspells⟩, rfl⟩
      -- Without a hyphen there is no minus sign either.
      have hplus : negative = false := by
        cases negative with
        | false => rfl
        | true => exact absurd (hspells.minus_mem_iff.2 rfl) hminus
      subst hplus
      exact ⟨n, hspells, by rw [Text.toNat_word, Text.wordValue_false]⟩
    · rintro ⟨n, hspells, rfl⟩
      exact ⟨⟨false, n, []⟩, ⟨rfl, hspells⟩, by rw [Text.toNat_word, Text.wordValue_false]⟩

/-! ### Cards -/

/-- An entry is a card if it has a number, a device and the vendor. -/
theorem card?_eq_some {found : UInt64 × Card} : card? t vendor name = some found ↔
    cardNumber? name = some found.1 ∧ t.isDirectory (devicePath name) = true ∧
    readHexadecimal t (devicePath name ++ [utf8 "vendor"]) = some vendor ∧
    found.2 = cardAt t vendor name := by
  obtain ⟨number, card⟩ := found
  have hpath : drmPath ++ [name] ++ [utf8 "device"] = devicePath name := rfl
  unfold card?
  cases hnumber : cardNumber? name with
  | none => simp
  | some number' =>
    cases hdevice : t.isDirectory (devicePath name) with
    | false => simp [hpath, hdevice]
    | true =>
      cases hread : readHexadecimal t (devicePath name ++ [utf8 "vendor"]) with
      | none => simp [hpath, hdevice, hread]
      | some v =>
        by_cases hv : v = vendor
        · subst hv
          simp [hpath, hdevice, hread, cardAt, eq_comm]
        · simp [hpath, hdevice, hread, hv]

def found (t : FileTree) (vendor : UInt32) : List (UInt64 × Card) :=
  (t.list drmPath (utf8 "card")).filterMap (card? t vendor)

theorem cards_perm_found (t : FileTree) (vendor : UInt32) :
    (cards t vendor).Perm ((found t vendor).map (·.2)) :=
  (List.mergeSort_perm _ _).map _

theorem of_mem_cards (h : card ∈ cards t vendor) :
    card = cardAt t vendor card.name ∧ card.name ∈ t.names drmPath ∧
    readHexadecimal t (devicePath card.name ++ [utf8 "vendor"]) = some vendor := by
  obtain ⟨⟨w, card⟩, hfound, rfl⟩ := List.mem_map.1 ((cards_perm_found t vendor).mem_iff.1 h)
  obtain ⟨name, hname, hcard⟩ := List.mem_filterMap.1 hfound
  obtain ⟨-, -, hvendor, hat⟩ := card?_eq_some.1 hcard
  obtain rfl : card = cardAt t vendor name := hat
  exact ⟨rfl, (FileTree.mem_list.1 hname).1, hvendor⟩

/-- Found are the cards of the vendor, each under its number. -/
theorem mem_found (h : Proper (t.names drmPath)) : (w, card) ∈ found t vendor ↔
    CardOf t vendor card.name ∧ card = cardAt t vendor card.name ∧ Ranked card.name w.toNat := by
  rw [found, List.mem_filterMap]
  simp only [card?_eq_some, FileTree.mem_list]
  constructor
  · rintro ⟨name, ⟨hentry, hstart⟩, hnumber, hdevice, hvendor, rfl⟩
    have hranked : Ranked name w.toNat := by
      apply (cardNumber?_iff hstart (h.nul_not_mem name hentry)).1
      rw [hnumber]
      rfl
    have hnamed : ∃ n, Named name n := hranked.imp fun _ => And.left
    exact ⟨⟨hentry, hnamed, hdevice, hvendor⟩, rfl, hranked⟩
  · rintro ⟨⟨hentry, ⟨n, hn⟩, hdevice, hvendor⟩, hcard, hranked⟩
    -- a card has a number that can be read, and no other entry has one
    have hnumber := (cardNumber?_iff hn.startsWith (h.nul_not_mem _ hentry)).2 hranked
    obtain ⟨w', hw', hw⟩ := Option.map_eq_some_iff.1 hnumber
    obtain rfl := UInt64.toNat_inj.1 hw
    exact ⟨card.name, ⟨hentry, hn.startsWith⟩, hw', hdevice, hvendor, hcard⟩

/-- Every card of the vendor is in the list, and nothing else. -/
theorem mem_cards (h : Proper (t.names drmPath)) : card ∈ cards t vendor ↔
    CardOf t vendor card.name ∧ card = cardAt t vendor card.name := by
  rw [(cards_perm_found t vendor).mem_iff, List.mem_map]
  constructor
  · rintro ⟨⟨w, card⟩, hmem, rfl⟩
    obtain ⟨hof, hcard, -⟩ := (mem_found h).1 hmem
    exact ⟨hof, hcard⟩
  · rintro ⟨hof, hcard⟩
    obtain ⟨n, hn⟩ := hof.named
    have hlt : min n (2 ^ 64 - 1) < 2 ^ 64 := by omega
    have hword : (min n (2 ^ 64 - 1)).toUInt64.toNat = min n (2 ^ 64 - 1) :=
      UInt64.toNat_ofNat_of_lt' hlt
    exact ⟨⟨_, card⟩, (mem_found h).2 ⟨hof, hcard, n, hn, hword⟩, rfl⟩

theorem names_nodup (h : Proper (t.names drmPath)) :
    ((cards t vendor).map (·.name)).Nodup := by
  have hperm := (cards_perm_found t vendor).map (·.name)
  have hlist : (t.list drmPath (utf8 "card")).Nodup := by
    rw [FileTree.list_eq, (List.mergeSort_perm _ _).nodup_iff]
    exact h.nodup.filter _
  rw [hperm.nodup_iff, List.map_map, found, List.map_filterMap]
  apply hlist.filterMap
  intro name name' found hfound hfound'
  obtain ⟨c, hc, rfl⟩ := Option.map_eq_some_iff.1 hfound
  obtain ⟨c', hc', heq⟩ := Option.map_eq_some_iff.1 hfound'
  have hname : c.2.name = name := congrArg Card.name (card?_eq_some.1 hc).2.2.2
  have hname' : c'.2.name = name' := congrArg Card.name (card?_eq_some.1 hc').2.2.2
  exact hname.symm.trans (heq.symm.trans hname')

/-- The list is in the order of the numbers. -/
theorem cards_inOrder (h : Proper (t.names drmPath)) : (cards t vendor).Pairwise InOrder := by
  have hsorted : ((found t vendor).mergeSort fun a b => a.1 ≤ b.1).Pairwise
      fun a b => decide (a.1 ≤ b.1) = true := by
    apply List.pairwise_mergeSort
    · intro a b c hab hbc
      rw [decide_eq_true_eq] at hab hbc ⊢
      exact UInt64.le_trans hab hbc
    · intro a b
      rw [Bool.or_eq_true, decide_eq_true_eq, decide_eq_true_eq]
      exact UInt64.le_total a.1 b.1
  have hcards : cards t vendor = ((found t vendor).mergeSort fun a b => a.1 ≤ b.1).map (·.2) := rfl
  rw [hcards, List.pairwise_map]
  -- sorted by the words read, which are the numbers in the names
  apply hsorted.imp_of_mem
  intro a b ha hb hle
  rw [List.mem_mergeSort] at ha hb
  exact ⟨_, _, ((mem_found h).1 ha).2.2, ((mem_found h).1 hb).2.2,
    UInt64.le_iff_toNat_le.1 (of_decide_eq_true hle)⟩

/-- The list enumerates the cards of the vendor, in the order of their numbers. -/
theorem cards_enumerates (h : Proper (t.names drmPath)) : Enumerates t vendor (cards t vendor) where
  name_mem_iff name := by
    rw [List.mem_map]
    constructor
    · rintro ⟨card, hcard, rfl⟩
      exact ((mem_cards h).1 hcard).1
    · intro hof
      exact ⟨cardAt t vendor name, (mem_cards h).2 ⟨hof, rfl⟩, rfl⟩
  nodup := names_nodup h
  eq_cardAt card hcard := ((mem_cards h).1 hcard).2
  inOrder := cards_inOrder h

theorem Enumerates.map_cardAt {l : List Card} (h : Enumerates t vendor l) :
    (l.map (·.name)).map (cardAt t vendor) = l := by
  rw [List.map_map]
  exact (List.map_congr_left fun card hcard => (h.eq_cardAt card hcard).symm).trans (List.map_id l)

/-- There is one list of cards if no two have the same number. -/
theorem Enumerates.unique {l l' : List Card} (h : Enumerates t vendor l)
    (h' : Enumerates t vendor l') (hdistinct : Distinct l) : l' = l := by
  have hnames : (l'.map (·.name)).Perm (l.map (·.name)) := by
    rw [List.perm_ext_iff_of_nodup h'.nodup h.nodup]
    intro name
    rw [h'.name_mem_iff, h.name_mem_iff]
  have hperm : l'.Perm l := by
    rw [← h.map_cardAt, ← h'.map_cardAt]
    exact hnames.map _
  apply hperm.eq_of_pairwise _ h'.inOrder h.inOrder
  rintro a b ha hb ⟨j, k, hj, hk, hle⟩ ⟨k', j', hk', hj', hle'⟩
  obtain rfl := hj.unique hj'
  obtain rfl := hk.unique hk'
  obtain rfl := Nat.le_antisymm hle hle'
  exact hdistinct a (hperm.mem_iff.1 ha) b hb _ hj hk

/-- A card has one vendor. -/
theorem vendor_unique {a b : Card} (ha : a ∈ cards t vendor) (hb : b ∈ cards t other)
    (heq : b.name = a.name) : other = vendor := by
  have hvendor := (of_mem_cards ha).2.2
  have hother := (of_mem_cards hb).2.2
  rw [heq, hvendor] at hother
  exact (Option.some.inj hother).symm

theorem card_unique {a b : Card} (ha : a ∈ cards t vendor) (hb : b ∈ cards t other)
    (heq : b.name = a.name) : b = a := by
  obtain rfl := vendor_unique ha hb heq
  rw [(of_mem_cards ha).1, (of_mem_cards hb).1, heq]

/-- Whether the numbers are distinct can be seen from the names. -/
theorem distinct_of_nodup (h : Proper (t.names drmPath))
    (hnodup : (((cards t vendor).map (·.name)).map cardNumber?).Nodup) : Distinct (cards t vendor) := by
  have hnumber (card : Card) (hcard : card ∈ cards t vendor) (k : ℕ) (hk : Ranked card.name k) :
      (cardNumber? card.name).map UInt64.toNat = some k := by
    obtain ⟨n, hn, -⟩ := id hk
    exact (cardNumber?_iff hn.startsWith (h.nul_not_mem _ ((mem_cards h).1 hcard).1.entry)).2 hk
  rw [List.map_map] at hnodup
  intro a ha b hb k hak hbk
  apply List.inj_on_of_nodup_map hnodup ha hb
  apply Option.map_injective fun _ _ => UInt64.toNat_inj.1
  exact (hnumber a ha k hak).trans (hnumber b hb k hbk).symm

/-! ### Other trees -/

theorem literal_drmPath : ∀ name ∈ drmPath, Literal name := by decide

theorem leads_entry (hname : name ∈ t.names drmPath) : t.Leads (drmPath ++ [name]) :=
  (FileTree.leads_of_literal t literal_drmPath).listed hname

theorem leads_device (hname : name ∈ t.names drmPath) : t.Leads (devicePath name) :=
  (leads_entry hname).append (by decide)

theorem leads_sensors (hname : name ∈ t.names drmPath) :
    t.Leads (devicePath name ++ [utf8 "hwmon"]) :=
  (leads_device hname).append (by decide)

theorem readHexadecimal_congr (h : SameOutside hidden t t') (hp : t.Leads p)
    (hv : Visible hidden p) : readHexadecimal t' p = readHexadecimal t p := by
  rw [readHexadecimal, readHexadecimal, h.readLine hp hv]

theorem card?_congr (h : SameOutside hidden t t') (hname : name ∈ t.names drmPath)
    (hv : ∀ file ∈ [utf8 "vendor", utf8 "device"], Visible hidden (devicePath name ++ [file])) :
    card? t' vendor name = card? t vendor name := by
  have hdevice := leads_device hname
  have hfile (file : Text) (hfile : file ∈ [utf8 "vendor", utf8 "device"]) :
      readHexadecimal t' (devicePath name ++ [file]) = readHexadecimal t (devicePath name ++ [file]) := by
    have hliteral : ∀ file ∈ [utf8 "vendor", utf8 "device"], ∀ name ∈ [file], Literal name := by decide
    exact readHexadecimal_congr h (hdevice.append (hliteral file hfile)) (hv file hfile)
  have hdirectory := h.isDirectory hdevice (hv _ List.mem_cons_self).of_append
  unfold devicePath at hfile hdirectory
  unfold card?
  simp only [hdirectory, hfile _ List.mem_cons_self,
    hfile _ (List.mem_cons_of_mem _ List.mem_cons_self)]

/-- A tree that is the same where cards are looked for has the same cards. -/
theorem cards_congr (h : SameOutside hidden t t') (hv : ∀ name,
    ∀ file ∈ [utf8 "vendor", utf8 "device"], Visible hidden (devicePath name ++ [file])) :
    cards t' vendor = cards t vendor := by
  have hentry (name : Text) : Visible hidden (drmPath ++ [name]) :=
    (hv name _ List.mem_cons_self).of_append.of_append
  have hlist : t'.list drmPath (utf8 "card") = t.list drmPath (utf8 "card") :=
    h.list (FileTree.leads_of_literal t literal_drmPath) (hentry []).of_append fun name _ => hentry name
  have hfound : found t' vendor = found t vendor := by
    rw [found, found, hlist]
    apply List.filterMap_congr
    intro name hname
    exact card?_congr h (FileTree.mem_list.1 hname).1 (hv name)
  have hcards (t : FileTree) :
      cards t vendor = ((found t vendor).mergeSort fun a b => a.1 ≤ b.1).map (·.2) := rfl
  rw [hcards, hcards, hfound]

/-- **The cards of a vendor are found exactly**, in the order of their numbers, and from the same entries in
any order they are the same. If no two have the same number, nothing else is a list of them in order. Two
vendors have no card in common, and each backend tells of the cards of its vendor. -/
theorem cards_exact (t : FileTree) (h : Proper (t.names drmPath)) :
    (∀ vendor, Enumerates t vendor (cards t vendor) ∧
      (∀ t', SameOutside [] t t' → cards t' vendor = cards t vendor) ∧
      (Distinct (cards t vendor) →
        ∀ arranged, Enumerates t vendor arranged → arranged = cards t vendor)) ∧
    (∀ vendor other, other ≠ vendor →
      ∀ a ∈ cards t vendor, ∀ b ∈ cards t other, a.name ≠ b.name) ∧
    ∃ amd intel, Enumerates t Vendor.pciAmd amd ∧ Enumerates t Vendor.pciIntel intel ∧
      (Amd.detect t).found = amd.map (Amd.read t) ∧
      (Intel.detect t).found = intel.map (Intel.read t) ∧
      ∀ a ∈ amd, ∀ b ∈ intel, a.name ≠ b.name := by
  have hfound (vendor : UInt32) : Enumerates t vendor (cards t vendor) := cards_enumerates h
  have hne (vendor other : UInt32) (hvendor : other ≠ vendor) :
      ∀ a ∈ cards t vendor, ∀ b ∈ cards t other, a.name ≠ b.name :=
    fun a ha b hb heq => hvendor (vendor_unique ha hb heq.symm)
  refine ⟨fun vendor => ⟨hfound vendor, ?_, ?_⟩, hne, ?_⟩
  · intro t' hsame
    exact cards_congr hsame fun _ _ _ => nofun
  · intro hdistinct arranged harranged
    exact (hfound vendor).unique harranged hdistinct
  · exact ⟨_, _, hfound _, hfound _, rfl, rfl, hne _ _ (by decide)⟩

def cardOfVendor (vendor : String) : FileTree.Node :=
  .directory [(utf8 "device", .directory [(utf8 "vendor", .file (utf8 vendor))])]

def mixedEntries : List (Text × FileTree.Node) :=
  [(utf8 "card10", cardOfVendor "0x1002"), (utf8 "card2", cardOfVendor "0x1002"),
    (utf8 "card +3", cardOfVendor "0x1002"), (utf8 "card1", cardOfVendor "0x8086"),
    (utf8 "card2-DP-1", cardOfVendor "0x1002"), (utf8 "renderD128", cardOfVendor "0x1002")]

def withEntries (entries : List (Text × FileTree.Node)) : FileTree where
  top := .directory [(utf8 "class", .directory [(utf8 "drm", .directory entries)])]
  way := (utf8 "/sys/").length

/-- Cards of two vendors, not in order, beside a connector and a node that is no card. -/
theorem cards_exact_of_mixed :
    Proper ((withEntries mixedEntries).names drmPath) ∧
    (cards (withEntries mixedEntries) Vendor.pciAmd).map (·.name) =
      [utf8 "card2", utf8 "card +3", utf8 "card10"] ∧
    Enumerates (withEntries mixedEntries) Vendor.pciAmd
      (cards (withEntries mixedEntries) Vendor.pciAmd) ∧
    cards (withEntries mixedEntries.reverse) Vendor.pciAmd =
      cards (withEntries mixedEntries) Vendor.pciAmd ∧
    (∀ arranged, Enumerates (withEntries mixedEntries) Vendor.pciAmd arranged →
      arranged = cards (withEntries mixedEntries) Vendor.pciAmd) ∧
    ∀ a ∈ cards (withEntries mixedEntries) Vendor.pciAmd,
      ∀ b ∈ cards (withEntries mixedEntries) Vendor.pciIntel, a.name ≠ b.name := by
  have hnodup : (mixedEntries.map (·.1)).Nodup := by decide +kernel
  have hproper : Proper ((withEntries mixedEntries).names drmPath) :=
    ⟨hnodup, show ∀ name ∈ mixedEntries.map (·.1), 0 ∉ name by decide +kernel⟩
  have hnames : (cards (withEntries mixedEntries) Vendor.pciAmd).map (·.name) =
      [utf8 "card2", utf8 "card +3", utf8 "card10"] := by cbv
  have hdistinct : Distinct (cards (withEntries mixedEntries) Vendor.pciAmd) := by
    apply distinct_of_nodup hproper
    rw [hnames]
    decide +kernel
  have hplace : (withEntries mixedEntries).top.descend? drmPath = some (.directory mixedEntries) := rfl
  have hsame : SameOutside [] (withEntries mixedEntries) (withEntries mixedEntries.reverse) :=
    ⟨rfl, .insert hplace (.of_perm mixedEntries.reverse_perm.symm hnodup)⟩
  obtain ⟨hvendor, hdisjoint, -⟩ := cards_exact _ hproper
  obtain ⟨hfound, hreordered, hunique⟩ := hvendor Vendor.pciAmd
  exact ⟨hproper, hnames, hfound, hreordered _ hsame, hunique hdistinct,
    hdisjoint _ _ (by decide)⟩

end GpuTelemetry.Sysfs
