import GpuTelemetry.Proofs.Source
import GpuTelemetry.Proofs.Sysfs.ClockTable

namespace GpuTelemetry.Sysfs

/-- If the clock is there, so is the largest one, and the clock is not above it. -/
def Within (clock most : Option UInt32) : Prop := ∀ c ∈ clock, ∃ m ∈ most, c ≤ m

variable {t : FileTree} {r : Reading}

/-- The level in use is one of the levels. -/
theorem active_within_max (table : Text) : Within (activeMHz table) (maxMHz table) := by
  intro c hc
  have hfirst := firstActive_activeMHz table
  rw [Option.mem_def.1 hc] at hfirst
  obtain ⟨before, line, after, hlines, -, hread, -⟩ := hfirst
  have hline : line ∈ Text.lines table := by simp [hlines]
  have hlargest := largest_maxMHz table
  cases hmax : maxMHz table with
  | none =>
    rw [hmax] at hlargest
    exact absurd hread (hlargest line hline c.toNat)
  | some m =>
    rw [hmax] at hlargest
    exact ⟨m, rfl, UInt32.le_iff_toNat_le.2 (hlargest.2 line hline c.toNat hread)⟩

theorem Amd.clocks_of_mem (h : r ∈ Amd.readings t) : Within r.coreClockMHz r.maxClockMHz := by
  obtain ⟨card, -, rfl⟩ := List.mem_map.1 h
  unfold Amd.read
  dsimp only
  cases t.readText (card.devicePath ++ [utf8 "pp_dpm_sclk"]) with
  | none => exact nofun
  | some table => exact active_within_max table

/-- **The clock in use is within the largest one.** That holds of every table of clock levels, and so of
every card that is found and of every reading that is refreshed. -/
theorem core_within_max :
    (∀ table, Within (activeMHz table) (maxMHz table)) ∧
    ∀ t, (∀ r ∈ (Amd.detect t).found, Within r.coreClockMHz r.maxClockMHz) ∧
      ∀ r, (Amd.refresh t r).outcome = .returned .ok →
        Within (Amd.refresh t r).reading.coreClockMHz (Amd.refresh t r).reading.maxClockMHz := by
  refine ⟨active_within_max, fun t => ⟨fun r hr => Amd.clocks_of_mem hr, fun r hok => ?_⟩⟩
  unfold Amd.refresh at hok ⊢
  rcases Attempt.among_cases (·.same r) (Amd.readings t) r with ⟨f, hf, -, hread⟩ | ⟨-, hfail⟩
  · rw [hread]
    exact Amd.clocks_of_mem hf
  · rw [hfail] at hok
    cases hok

def oddClocks : FileTree where
  top := .directory [(utf8 "class", .directory [(utf8 "drm", .directory [(utf8 "card0", .directory
    [(utf8 "device", .directory [(utf8 "vendor", .file (utf8 "0x1002")),
      (utf8 "product_name", .file (utf8 "A")),
      (utf8 "pp_dpm_sclk", .file (utf8 "0: 500Mhz\n1: -5Mhz *\n2: 4294967297Mhz\n"))])])])])]
  way := (utf8 "/sys/").length

/-- A level in use whose number has a minus sign, beside one that is too large for 32 bits. -/
theorem core_within_max_of_odd : ∃ r ∈ (Amd.detect oddClocks).found,
    r.coreClockMHz = some 4294967291 ∧ Within r.coreClockMHz r.maxClockMHz ∧
    (Amd.refresh oddClocks r).outcome = .returned .ok ∧
    Within (Amd.refresh oddClocks r).reading.coreClockMHz
      (Amd.refresh oddClocks r).reading.maxClockMHz := by
  have hsome : ((Amd.detect oddClocks).found[0]?).any (fun r => r.coreClockMHz = some 4294967291 ∧
      (Amd.refresh oddClocks r).outcome = .returned .ok) = true := by decide +kernel
  obtain ⟨r, hr, hclock⟩ := (Option.any_eq_true _ _).1 hsome
  obtain ⟨hcore, hok⟩ := of_decide_eq_true hclock
  obtain ⟨hfound, hrefreshed⟩ := core_within_max.2 oddClocks
  have hmem := List.mem_of_getElem? hr
  exact ⟨r, hmem, hcore, hfound r hmem, hok, hrefreshed r hok⟩

end GpuTelemetry.Sysfs
