import GpuTelemetry.Proofs.Sysfs.Card
/-!
What one attribute of a card can change. Each attribute feeds some metrics of its card. If it gets another
content, appears or goes away, all cards are found as before, and only these metrics of that card may be
told differently.
-/

namespace GpuTelemetry

inductive Metric where
  | temperature | utilization | coreClock | memoryClock | maxClock | powerUsage | powerLimit
  | memoryUsed | memoryTotal
deriving DecidableEq

structure Reading.SameBut (metrics : List Metric) (r r' : Reading) : Prop where
  vendor : r'.vendor = r.vendor
  name : r'.name = r.name
  driverVersion : r'.driverVersion = r.driverVersion
  temperatureC : .temperature ∉ metrics → r'.temperatureC = r.temperatureC
  utilizationPercent : .utilization ∉ metrics → r'.utilizationPercent = r.utilizationPercent
  coreClockMHz : .coreClock ∉ metrics → r'.coreClockMHz = r.coreClockMHz
  memoryClockMHz : .memoryClock ∉ metrics → r'.memoryClockMHz = r.memoryClockMHz
  maxClockMHz : .maxClock ∉ metrics → r'.maxClockMHz = r.maxClockMHz
  powerUsageW : .powerUsage ∉ metrics → r'.powerUsageW = r.powerUsageW
  powerLimitW : .powerLimit ∉ metrics → r'.powerLimitW = r.powerLimitW
  memoryUsedBytes : .memoryUsed ∉ metrics → r'.memoryUsedBytes = r.memoryUsedBytes
  memoryTotalBytes : .memoryTotal ∉ metrics → r'.memoryTotalBytes = r.memoryTotalBytes
  active : r'.active = r.active

theorem Reading.SameBut.eq {r r' : Reading} (h : SameBut [] r r') : r' = r := by
  obtain ⟨hvendor, hname, hversion, htemperature, hutilization, hcore, hmemory, hmax, husage, hlimit,
    hused, htotal, hactive⟩ := h
  cases r
  cases r'
  simp_all

namespace Sysfs

open FileTree (Leads Literal SameOutside Visible)

inductive SensorFile where
  | temperature | powerAverage | powerInput | powerCap | powerMax

namespace SensorFile

def name : SensorFile → Text
  | temperature => utf8 "temp1_input"
  | powerAverage => utf8 "power1_average"
  | powerInput => utf8 "power1_input"
  | powerCap => utf8 "power1_cap"
  | powerMax => utf8 "power1_max"

def feeds : SensorFile → List Metric
  | temperature => [.temperature]
  | powerAverage | powerInput => [.powerUsage]
  | powerCap | powerMax => [.powerLimit]

theorem name_injective : Function.Injective name := by
  intro f g h
  cases f <;> cases g <;> first | rfl | exact absurd h (by decide)

theorem literal_name (f : SensorFile) : ∀ name ∈ [f.name], Literal name := by
  cases f <;> decide

end SensorFile

inductive DeviceFile where
  | busy | memoryUsed | memoryTotal | coreTable | memoryTable

namespace DeviceFile

def name : DeviceFile → Text
  | busy => utf8 "gpu_busy_percent"
  | memoryUsed => utf8 "mem_info_vram_used"
  | memoryTotal => utf8 "mem_info_vram_total"
  | coreTable => utf8 "pp_dpm_sclk"
  | memoryTable => utf8 "pp_dpm_mclk"

def feeds : DeviceFile → List Metric
  | busy => [.utilization]
  | memoryUsed => [.memoryUsed]
  | memoryTotal => [.memoryTotal]
  | coreTable => [.coreClock, .maxClock]
  | memoryTable => [.memoryClock]

theorem name_injective : Function.Injective name := by
  intro f g h
  cases f <;> cases g <;> first | rfl | exact absurd h (by decide)

theorem literal_name (f : DeviceFile) : ∀ name ∈ [f.name], Literal name := by
  cases f <;> decide

end DeviceFile

def frequencyName (kind : Text) : Text := utf8 "gt_" ++ kind ++ utf8 "_freq_mhz"

theorem frequencyName_injective : Function.Injective frequencyName := by
  intro kind kind' h
  exact List.append_cancel_left (List.append_cancel_right h)

theorem frequencyName_ne {kind name : Text} (h : name.take 3 ≠ utf8 "gt_") :
    frequencyName kind ≠ name := by
  rintro rfl
  exact h rfl

inductive Attribute where
  | sensor (directory : Text) (file : SensorFile)
  | device (file : DeviceFile)
  | frequency (ofCard : Bool) (kind : Text)

namespace Attribute

def path : Attribute → FileTree.Path
  | sensor directory file => [utf8 "device", utf8 "hwmon", directory, file.name]
  | device file => [utf8 "device", file.name]
  | frequency true kind => [frequencyName kind]
  | frequency false kind => [utf8 "device", frequencyName kind]

def feeds : Attribute → List Metric
  | sensor _ file => file.feeds
  | device file => file.feeds
  | frequency _ kind =>
    if kind ∈ [utf8 "cur", utf8 "act"] then [.coreClock]
    else if kind ∈ [utf8 "max", utf8 "boost"] then [.maxClock]
    else []

variable {a b : Attribute}

/-- No attribute is below another one. -/
theorem eq_of_below (h : a.path <+: b.path) : a = b := by
  have hdevice (kind : Text) : frequencyName kind ≠ utf8 "device" := frequencyName_ne (by decide)
  have hsensors (kind : Text) : frequencyName kind ≠ utf8 "hwmon" := frequencyName_ne (by decide)
  have hfile (f : DeviceFile) : f.name ≠ utf8 "hwmon" := by cases f <;> decide
  have hkind (f : DeviceFile) (kind : Text) : frequencyName kind ≠ f.name :=
    frequencyName_ne (by cases f <;> decide)
  match a, b with
  | sensor directory f, sensor directory' f' =>
    simp only [path, List.cons_prefix_cons, true_and] at h
    obtain ⟨rfl, hname, -⟩ := h
    rw [SensorFile.name_injective hname]
  | device f, device f' =>
    simp only [path, List.cons_prefix_cons, true_and] at h
    rw [DeviceFile.name_injective h.1]
  | frequency true kind, frequency true kind' =>
    simp only [path, List.cons_prefix_cons] at h
    rw [frequencyName_injective h.1]
  | frequency false kind, frequency false kind' =>
    simp only [path, List.cons_prefix_cons, true_and] at h
    rw [frequencyName_injective h.1]
  -- Any others differ in their lengths or in a name.
  | sensor _ _, device _ | sensor _ _, frequency true _ | sensor _ _, frequency false _
  | device _, sensor _ _ | device _, frequency true _ | device _, frequency false _
  | frequency true _, sensor _ _ | frequency true _, device _ | frequency true _, frequency false _
  | frequency false _, sensor _ _ | frequency false _, device _
  | frequency false _, frequency true _ =>
    simp [path, List.cons_prefix_cons, hdevice, hsensors, hfile, hkind, (hkind _ _).symm] at h

end Attribute

/-- The hidden places leave the card of that name all that does not feed those metrics, and the modules. -/
structure Spares (hidden : List FileTree.Path) (name : Text) (metrics : List Metric) : Prop where
  fed : ∀ a : Attribute, ∀ m ∈ a.feeds, m ∉ metrics → Visible hidden (drmPath ++ [name] ++ a.path)
  sensor : ∀ directory, Visible hidden (devicePath name ++ [utf8 "hwmon"] ++ [directory])
  title : ∀ file ∈ [utf8 "product_name", utf8 "label"], Visible hidden (devicePath name ++ [file])
  kernel : ∀ p, Visible hidden (utf8 "module" :: p)

variable {t t' : FileTree} {hidden : List FileTree.Path} {name other : Text} {metrics : List Metric}
  {vendor : UInt32} {m : Metric}

/-! ### What is read of a card -/

theorem findSome?_congr {α β : Type} {f g : α → Option β} {l : List α} (h : ∀ x ∈ l, f x = g x) :
    l.findSome? f = l.findSome? g := by
  rw [← List.head?_filterMap, ← List.head?_filterMap, List.filterMap_congr h]

theorem moduleVersion_eq (h : SameOutside hidden t t') (hspares : Spares hidden name metrics)
    (driver : Text) (hliteral : ∀ name ∈ FileTree.Path.ofText driver, Literal name) :
    moduleVersion t' driver = moduleVersion t driver := by
  have hpath : ∀ name ∈ [utf8 "module"] ++ FileTree.Path.ofText driver ++ [utf8 "version"],
      Literal name := by
    rw [List.forall_mem_append, List.forall_mem_append]
    exact ⟨⟨by decide, hliteral⟩, by decide⟩
  exact h.readLine (FileTree.leads_of_literal t hpath) (hspares.kernel _)

section
variable (h : SameOutside hidden t t') (hname : name ∈ t.names drmPath)
  (hspares : Spares hidden name metrics)
include h hname hspares

theorem readText_device (f : DeviceFile) (hm : m ∈ f.feeds) (hspared : m ∉ metrics) :
    t'.readText (devicePath name ++ [f.name]) = t.readText (devicePath name ++ [f.name]) := by
  have hfile := (leads_device hname).append f.literal_name
  exact h.readText hfile (hspares.fed (.device f) m hm hspared)

theorem readUnsigned_device (f : DeviceFile) (hm : m ∈ f.feeds) (hspared : m ∉ metrics) :
    readUnsigned t' (devicePath name ++ [f.name]) = readUnsigned t (devicePath name ++ [f.name]) := by
  have htext := readText_device h hname hspares f hm hspared
  unfold readUnsigned FileTree.readLine
  rw [htext]

/-- A frequency is looked for in two places, and both must be spared. -/
theorem frequency?_eq (vendor : UInt32) (kind : Text) (file : String) (hfile : utf8 file = frequencyName kind)
    (hliteral : ∀ name ∈ [utf8 file], Literal name)
    (hm : m ∈ (Attribute.frequency true kind).feeds) (hspared : m ∉ metrics) :
    Intel.frequency? t' (cardAt t vendor name) file =
      Intel.frequency? t (cardAt t vendor name) file := by
  have honcard : Visible hidden (drmPath ++ [name] ++ [utf8 file]) := by
    rw [hfile]
    exact hspares.fed (.frequency true kind) m hm hspared
  have hondevice : Visible hidden (devicePath name ++ [utf8 file]) := by
    rw [hfile]
    exact hspares.fed (.frequency false kind) m hm hspared
  -- the file of the card is tried first, then that of its device
  have hcard := h.readLine ((leads_entry hname).append hliteral) honcard
  have hdevice := h.readLine ((leads_device hname).append hliteral) hondevice
  unfold Intel.frequency? readUnsigned32 readUnsigned cardAt
  dsimp only
  rw [hcard, hdevice]

theorem sensorPaths_eq : sensorPaths t' (devicePath name) = sensorPaths t (devicePath name) := by
  have hlist : t'.list (devicePath name ++ [utf8 "hwmon"]) (utf8 "hwmon") =
      t.list (devicePath name ++ [utf8 "hwmon"]) (utf8 "hwmon") :=
    h.list (leads_sensors hname) (hspares.sensor []).of_append fun directory _ => hspares.sensor directory
  unfold sensorPaths
  dsimp only
  rw [hlist]

/-- What is read of a sensor is the same if the metric it feeds is spared. -/
theorem readLine_sensor (f : SensorFile) (hm : m ∈ f.feeds) (hspared : m ∉ metrics) :
    ∀ p ∈ sensorPaths t (devicePath name), t'.readLine (p ++ [f.name]) = t.readLine (p ++ [f.name]) := by
  intro p hp
  obtain ⟨directory, hdirectory, rfl⟩ := List.mem_map.1 hp
  have hsensor := (leads_sensors hname).listed (FileTree.mem_list.1 hdirectory).1
  exact h.readLine (hsensor.append f.literal_name) (hspares.fed (.sensor directory f) m hm hspared)

theorem temperatureC_eq (hspared : .temperature ∉ metrics) :
    temperatureC t' (devicePath name) = temperatureC t (devicePath name) := by
  unfold temperatureC
  rw [sensorPaths_eq h hname hspares]
  apply findSome?_congr
  intro p hp
  have hline : t'.readLine (p ++ [utf8 "temp1_input"]) = t.readLine (p ++ [utf8 "temp1_input"]) :=
    readLine_sensor h hname hspares .temperature List.mem_cons_self hspared p hp
  rw [readSigned, readSigned, hline]

theorem powerW_eq (f : SensorFile) (hm : m ∈ f.feeds) (hspared : m ∉ metrics) :
    powerW t' (devicePath name) [f.name] = powerW t (devicePath name) [f.name] := by
  unfold powerW
  rw [sensorPaths_eq h hname hspares]
  apply findSome?_congr
  intro p hp
  rw [readUnsigned, readUnsigned, readLine_sensor h hname hspares f hm hspared p hp]

theorem readLine_title {file : Text} (hfile : file ∈ [utf8 "product_name", utf8 "label"]) :
    t'.readLine (devicePath name ++ [file]) = t.readLine (devicePath name ++ [file]) := by
  have hliteral : ∀ file ∈ [utf8 "product_name", utf8 "label"], ∀ name ∈ [file], Literal name := by decide
  exact h.readLine ((leads_device hname).append (hliteral file hfile)) (hspares.title file hfile)

/-- An AMD card is read the same, but for the metrics that are not spared. -/
theorem Amd.read_sameBut : Reading.SameBut metrics
    (Amd.read t (cardAt t vendor name)) (Amd.read t' (cardAt t vendor name)) := by
  -- each field is read from a file that is the same, or it feeds on the hidden one
  have htitle := readLine_title h hname hspares List.mem_cons_self
  have hversion := moduleVersion_eq h hspares (utf8 "amdgpu") (by decide)
  have htemperature := temperatureC_eq h hname hspares
  have hbusy := readUnsigned_device (m := .utilization) h hname hspares .busy (by decide)
  have hcore := readText_device (m := .coreClock) h hname hspares .coreTable (by decide)
  have hmemory := readText_device (m := .memoryClock) h hname hspares .memoryTable (by decide)
  have hmax := readText_device (m := .maxClock) h hname hspares .coreTable (by decide)
  have haverage := powerW_eq (m := .powerUsage) h hname hspares .powerAverage (by decide)
  have hinput := powerW_eq (m := .powerUsage) h hname hspares .powerInput (by decide)
  have hcap := powerW_eq (m := .powerLimit) h hname hspares .powerCap (by decide)
  have hused := readUnsigned_device (m := .memoryUsed) h hname hspares .memoryUsed (by decide)
  have htotal := readUnsigned_device (m := .memoryTotal) h hname hspares .memoryTotal (by decide)
  simp only [DeviceFile.name] at hbusy hcore hmemory hmax hused htotal
  simp only [SensorFile.name] at haverage hinput hcap
  constructor <;> simp +contextual only [Amd.read, cardAt, *, not_false_eq_true, implies_true]

/-- An Intel card is read the same, but for the metrics that are not spared. -/
theorem Intel.read_sameBut : Reading.SameBut metrics
    (Intel.read t (cardAt t vendor name)) (Intel.read t' (cardAt t vendor name)) := by
  have hlabel := readLine_title h hname hspares (List.mem_cons_of_mem _ List.mem_cons_self)
  have hi915 := moduleVersion_eq h hspares (utf8 "i915") (by decide)
  have hxe := moduleVersion_eq h hspares (utf8 "xe") (by decide)
  have htemperature := temperatureC_eq h hname hspares
  have hfrequency (m : Metric) (kind : Text) (file : String) (hfile : utf8 file = frequencyName kind) :=
    frequency?_eq (m := m) h hname hspares vendor kind file hfile
  have hcur := hfrequency .coreClock (utf8 "cur") "gt_cur_freq_mhz" (by decide) (by decide) (by decide)
  have hact := hfrequency .coreClock (utf8 "act") "gt_act_freq_mhz" (by decide) (by decide) (by decide)
  have hmax := hfrequency .maxClock (utf8 "max") "gt_max_freq_mhz" (by decide) (by decide) (by decide)
  have hboost := hfrequency .maxClock (utf8 "boost") "gt_boost_freq_mhz" (by decide) (by decide)
    (by decide)
  have hlimit := powerW_eq (m := .powerLimit) h hname hspares .powerMax (by decide)
  have hused := readUnsigned_device (m := .memoryUsed) h hname hspares .memoryUsed (by decide)
  have htotal := readUnsigned_device (m := .memoryTotal) h hname hspares .memoryTotal (by decide)
  simp only [DeviceFile.name] at hused htotal
  simp only [SensorFile.name] at hlimit
  unfold cardAt at hcur hact hmax hboost
  constructor <;> simp +contextual only [Intel.read, cardAt, *, not_false_eq_true, implies_true]

end

/-! ### One attribute hidden -/

/-- A place below one card hides no place of another card, and of its own card only what is below it. -/
theorem visible_of_card {p q : FileTree.Path} (hp : other = name → ¬ q <+: p) :
    Visible [drmPath ++ [name] ++ q] (drmPath ++ [other] ++ p) := by
  intro r hr hbelow
  obtain rfl := List.mem_singleton.1 hr
  simp only [drmPath, List.cons_append, List.nil_append, List.cons_prefix_cons, true_and] at hbelow
  exact hp hbelow.1.symm hbelow.2

namespace Attribute

/-- No attribute is where a device has something else. -/
theorem not_below (a : Attribute) {file : Text} (rest : FileTree.Path)
    (hfile : file ∈ [utf8 "hwmon", utf8 "product_name", utf8 "label", utf8 "vendor", utf8 "device"])
    (hrest : rest.length ≤ 1) : ¬ a.path <+: utf8 "device" :: file :: rest := by
  intro hbelow
  -- none of the files is named like a frequency
  have hnames : ∀ file ∈
      [utf8 "hwmon", utf8 "product_name", utf8 "label", utf8 "vendor", utf8 "device"],
      file.take 3 ≠ utf8 "gt_" := by decide
  have hkind (kind : Text) : frequencyName kind ≠ file := frequencyName_ne (hnames file hfile)
  cases a with
  | sensor directory f =>
    have hlength := hbelow.length_le
    simp only [path, List.length_cons, List.length_nil] at hlength
    omega
  | device f =>
    simp only [path, List.cons_prefix_cons, true_and] at hbelow
    rw [← hbelow.1] at hfile
    revert hfile
    cases f <;> decide
  | frequency ofCard kind =>
    cases ofCard with
    | false => simp [path, List.cons_prefix_cons, hkind] at hbelow
    | true =>
      have hdevice : frequencyName kind ≠ utf8 "device" := frequencyName_ne (by decide)
      simp [path, List.cons_prefix_cons, hdevice] at hbelow

theorem visible_device (a : Attribute) {file : Text}
    (hfile : file ∈ [utf8 "hwmon", utf8 "product_name", utf8 "label", utf8 "vendor", utf8 "device"]) :
    Visible [drmPath ++ [name] ++ a.path] (devicePath other ++ [file]) :=
  visible_of_card (p := [utf8 "device", file]) fun _ => a.not_below [] hfile (by decide)

/-- Hiding an attribute spares all but what it feeds, and of other cards everything. -/
theorem spares (a : Attribute) (name other : Text) :
    Spares [drmPath ++ [name] ++ a.path] other (if other = name then a.feeds else []) where
  fed b m hm hspared := by
    apply visible_of_card
    rintro rfl hbelow
    -- Only the attribute itself is hidden, and its metrics are not asked for.
    obtain rfl := eq_of_below hbelow
    rw [if_pos rfl] at hspared
    exact hspared hm
  sensor directory := by
    apply visible_of_card (p := [utf8 "device", utf8 "hwmon", directory])
    exact fun _ => a.not_below [directory] (by decide) le_rfl
  title file hfile := by
    apply a.visible_device
    revert file
    decide
  kernel p r hr hbelow := by
    obtain rfl := List.mem_singleton.1 hr
    have hclass : utf8 "class" ≠ utf8 "module" := by decide
    simp [drmPath, List.cons_prefix_cons, hclass] at hbelow

/-- No attribute has a part in which cards there are. -/
theorem cards_eq (a : Attribute) (h : SameOutside [drmPath ++ [name] ++ a.path] t t')
    (vendor : UInt32) : cards t' vendor = cards t vendor := by
  apply cards_congr h
  intro other file hfile
  apply a.visible_device
  revert file
  decide

end Attribute

/-- Two detections have the same outcome and find the same cards. They tell the same of all but one of the
cards, and of that one they tell the same but for those metrics. -/
structure Isolated (cards : List Card) (card : Card) (metrics : List Metric)
    (read read' : Card → Reading) (d d' : Detection) : Prop where
  outcome : d'.outcome = d.outcome
  found : d.found = cards.map read
  found' : d'.found = cards.map read'
  others : ∀ c ∈ cards, c ≠ card → read' c = read c
  sameBut : card ∈ cards → (read card).SameBut metrics (read' card)

/-- It is enough to know how a card is read. -/
theorem isolated_of_read {read : FileTree → Card → Reading} {card : Card} {listed : UInt32}
    (hcard : card ∈ cards t listed) (hcards : cards t' vendor = cards t vendor)
    (hread : ∀ name ∈ t.names drmPath, Reading.SameBut (if name = card.name then metrics else [])
      (read t (cardAt t vendor name)) (read t' (cardAt t vendor name))) :
    Isolated (cards t vendor) card metrics (read t) (read t')
      (.ofReadings ((cards t vendor).map (read t)))
      (.ofReadings ((cards t' vendor).map (read t'))) := by
  have hsame (c : Card) (hc : c ∈ cards t vendor) :
      Reading.SameBut (if c.name = card.name then metrics else []) (read t c) (read t' c) := by
    obtain ⟨hat, hname, -⟩ := of_mem_cards hc
    rw [hat]
    exact hread c.name hname
  rw [hcards]
  refine ⟨?_, rfl, rfl, ?_, ?_⟩
  · unfold Detection.ofReadings
    rw [List.isEmpty_map, List.isEmpty_map]
  · intro c hc hne
    -- two cards of one name would be one card
    have hname : c.name ≠ card.name := fun heq => hne (card_unique hcard hc heq)
    have hall := hsame c hc
    rw [if_neg hname] at hall
    exact hall.eq
  · intro hc
    have hall := hsame card hc
    rwa [if_pos rfl] at hall

/-- **An attribute changes the metrics it feeds and nothing else.** If two trees differ in one attribute of a
card only, both backends find the same cards with the same outcome, and what they tell differs at most in
these metrics of this card. -/
theorem attributes_isolated (a : Attribute) {t t' : FileTree} {vendor : UInt32} {card : Card}
    (hcard : card ∈ cards t vendor) (h : SameOutside [card.cardPath ++ a.path] t t') :
    Isolated (cards t Vendor.pciAmd) card a.feeds (Amd.read t) (Amd.read t')
      (Amd.detect t) (Amd.detect t') ∧
    Isolated (cards t Vendor.pciIntel) card a.feeds (Intel.read t) (Intel.read t')
      (Intel.detect t) (Intel.detect t') := by
  have hpath : card.cardPath = drmPath ++ [card.name] :=
    congrArg Card.cardPath (of_mem_cards hcard).1
  rw [hpath] at h
  constructor
  · apply isolated_of_read hcard (a.cards_eq h _)
    intro name hname
    exact Amd.read_sameBut h hname (a.spares card.name name)
  · apply isolated_of_read hcard (a.cards_eq h _)
    intro name hname
    exact Intel.read_sameBut h hname (a.spares card.name name)

def amdAndIntel : FileTree :=
  withEntries [(utf8 "card0", .directory [(utf8 "device", .directory
      [(utf8 "vendor", .file (utf8 "0x1002")), (utf8 "gpu_busy_percent", .file (utf8 "7")),
        (utf8 "pp_dpm_sclk", .file (utf8 "0: 500Mhz *\n"))])]),
    (utf8 "card1", cardOfVendor "0x8086")]

def amdCard : Card := cardAt amdAndIntel Vendor.pciAmd (utf8 "card0")

def brokenTable : FileTree :=
  { amdAndIntel with
    top := amdAndIntel.top.insert (.file (utf8 "broken"))
      (amdCard.cardPath ++ (Attribute.device .coreTable).path) }

/-- The table of core clocks of an AMD card can no longer be read. -/
theorem attributes_isolated_of_broken :
    amdCard ∈ cards amdAndIntel Vendor.pciAmd ∧
    SameOutside [amdCard.cardPath ++ (Attribute.device .coreTable).path] amdAndIntel brokenTable ∧
    Isolated (cards amdAndIntel Vendor.pciAmd) amdCard [.coreClock, .maxClock]
      (Amd.read amdAndIntel) (Amd.read brokenTable) (Amd.detect amdAndIntel) (Amd.detect brokenTable) ∧
    Isolated (cards amdAndIntel Vendor.pciIntel) amdCard [.coreClock, .maxClock]
      (Intel.read amdAndIntel) (Intel.read brokenTable)
      (Intel.detect amdAndIntel) (Intel.detect brokenTable) ∧
    (Amd.read amdAndIntel amdCard).coreClockMHz = some 500 ∧
    (Amd.read brokenTable amdCard).coreClockMHz = none := by
  have hcards : cards amdAndIntel Vendor.pciAmd = [amdCard] := by cbv
  have hcard : amdCard ∈ cards amdAndIntel Vendor.pciAmd := by
    rw [hcards]
    exact List.mem_cons_self
  have hplace : amdAndIntel.top.descend? (amdCard.cardPath ++ (Attribute.device .coreTable).path) =
      some (.file (utf8 "0: 500Mhz *\n")) := rfl
  have hsame : SameOutside [amdCard.cardPath ++ (Attribute.device .coreTable).path]
      amdAndIntel brokenTable := by
    -- the broken table stands where the good one was, so both trees are the same outside
    have hinsert := FileTree.Node.SameOutside.insert hplace (.self _ (.file (utf8 "broken")))
    rw [List.map_singleton, List.append_nil] at hinsert
    exact ⟨rfl, hinsert⟩
  obtain ⟨hamd, hintel⟩ := attributes_isolated (.device .coreTable) hcard hsame
  exact ⟨hcard, hsame, hamd, hintel, by decide +kernel, by decide +kernel⟩

end Sysfs

end GpuTelemetry
