import Reveille.Config.Text
import Reveille.Proofs.Alarm
import Reveille.Proofs.Checks
import Reveille.Proofs.Settings

/-!
# Checks of a configuration file

What a file says is checked in an order : the version, the poll interval, the volume, then entry by
entry whether its user was there before and whether a clock shows its time, and last the tolerance
(`Config.Draft.checks`). A draft that passes all of them keeps the rules of configurations
(`Config.Draft.keepsRules_iff`), which say nothing of an order. The check of a draft is decided by
them (`Config.check_decides`), and the configuration has the settings and the entries of the draft
(`Config.check_eq_ok_iff`). So a file that can be read is accepted exactly if it keeps the rules,
and else the first check that fails is reported (`Config.checked_in_order`).
-/

namespace Reveille

/-- What a file says of a user's alarm. -/
def UserAlarm.entry (e : UserAlarm) : Config.Entry := ⟨e.user, e.alarm.hour, e.alarm.minute⟩

namespace Config

variable {text : String} {draft : Draft} {config : Config}

/-! ## Checks -/

/-- The checks of an entry that comes after others. -/
def Entry.checks (earlier : List Entry) (e : Entry) : List (Check Fault) := [
  ⟨e.user ∉ earlier.map Entry.user, .duplicateUser e.user⟩,
  ⟨e.hour ≤ 23 ∧ e.minute ≤ 59, .badAlarm e.user (.notTimeOfDay e.hour e.minute)⟩]

/-- The checks of entries that come after others, each with all entries before it. -/
def entryChecks (earlier entries : List Entry) : List (Check Fault) :=
  (entries.zipIdx earlier.length).flatMap fun (e, i) => e.checks ((earlier ++ entries).take i)

/-- The checks of a draft, in their order. -/
def Draft.checks (draft : Draft) : List (Check Fault) :=
  ⟨draft.version = 1, .unsupportedVersion draft.version⟩ ::
  ⟨0 < draft.settings.pollMs.toNat, .noPollInterval⟩ ::
  ⟨∃ q ∈ draft.settings.volume.value?, 0 ≤ q ∧ q ≤ 1, .badVolume draft.settings.volume⟩ ::
  (entryChecks [] draft.entries ++
    [⟨draft.settings.toleranceMs.toNat ≤ draft.settings.lookbackMs.toNat,
      .wideTolerance draft.settings.toleranceMs draft.settings.lookbackMs⟩])

/-- What a file says keeps the rules of configurations. -/
structure Draft.KeepsRules (draft : Draft) : Prop where
  version : draft.version = 1
  settings : draft.settings.IsValid
  users_nodup : (draft.entries.map Entry.user).Nodup
  times : ∀ e ∈ draft.entries, e.hour ≤ 23 ∧ e.minute ≤ 59

/-! ## Entries -/

section Entries

variable {earlier entries : List Entry} {e : Entry}

theorem entryChecks_cons : entryChecks earlier (e :: entries) =
    e.checks earlier ++ entryChecks (earlier ++ [e]) entries := by
  simp [entryChecks, List.zipIdx_cons]

/-- The checks of entries hold exactly if no user is there twice and a clock shows every time. -/
theorem forall_entryChecks_iff : ∀ {entries earlier : List Entry},
    (∀ c ∈ entryChecks earlier entries, c.holds) ↔
      (∀ e ∈ entries, e.user ∉ earlier.map Entry.user) ∧ (entries.map Entry.user).Nodup ∧
        ∀ e ∈ entries, e.hour ≤ 23 ∧ e.minute ≤ 59
  | [], earlier => by simp [entryChecks]
  | e :: entries, earlier => by
    have hlater : (∀ e' ∈ entries, e'.user ∉ (earlier ++ [e]).map Entry.user) ↔
        (∀ e' ∈ entries, e'.user ∉ earlier.map Entry.user) ∧ e.user ∉ entries.map Entry.user := by
      simp only [List.map_append, List.mem_append, List.map_cons, List.map_nil, List.mem_singleton,
        not_or, List.mem_map, not_exists, not_and]
      exact forall₂_and
    rw [entryChecks_cons, List.forall_mem_append, forall_entryChecks_iff, hlater]
    simp only [Entry.checks, List.forall_mem_cons, List.map_cons, List.nodup_cons]
    tauto

/-- The entries are decided by their checks, if the users seen are those before them. -/
theorem checkEntries_decides : ∀ {entries earlier : List Entry} {seen : List String},
    (∀ user, user ∈ seen ↔ user ∈ earlier.map Entry.user) →
    Decides (entryChecks earlier entries) (checkEntries seen entries)
  | [], _, _, _ => Decides.ok_nil _
  | e :: entries, earlier, seen, hseen => by
    rw [entryChecks_cons]
    unfold checkEntries Entry.checks
    split
    · next hmem => exact Decides.of_not (not_not_intro ((hseen _).mp hmem))
    next hnew =>
    refine Decides.cons (fun hmem => hnew ((hseen _).mpr hmem)) ?_
    split
    · next refusal hmake =>
      obtain ⟨hlate, rfl⟩ := Alarm.make_eq_error_iff.mp hmake
      exact Decides.of_not (fun htime => by omega)
    · next alarm hmake =>
      obtain ⟨hhour, hminute⟩ := Alarm.make_eq_ok_iff.mp hmake
      refine Decides.cons ⟨by omega, by omega⟩ (Decides.map (checkEntries_decides fun user => ?_) _)
      rw [List.mem_cons, hseen, List.map_append, List.mem_append, or_comm]
      exact or_congr_right List.mem_singleton.symm

/-- The alarms of entries that are accepted say what the entries do. -/
theorem map_entry_of_checkEntries : ∀ {entries : List Entry} {seen : List String}
    {alarms : List UserAlarm}, checkEntries seen entries = .ok alarms →
    alarms.map UserAlarm.entry = entries
  | [], _, _, h => by
    cases h
    rfl
  | e :: entries, seen, alarms, h => by
    unfold checkEntries at h
    split at h
    · cases h
    split at h
    · cases h
    next alarm hmake =>
    obtain ⟨rest, hrest, h⟩ := Json.bind_eq_ok.mp h
    cases h
    obtain ⟨hhour, hminute⟩ := Alarm.make_eq_ok_iff.mp hmake
    rw [List.map_cons, map_entry_of_checkEntries hrest]
    unfold UserAlarm.entry
    rw [hhour, hminute]

end Entries

/-! ## Drafts -/

/-- A draft keeps the rules exactly if it passes all checks. -/
theorem Draft.keepsRules_iff : draft.KeepsRules ↔ ∀ c ∈ draft.checks, c.holds := by
  unfold Draft.checks
  simp only [List.forall_mem_cons, List.forall_mem_append, forall_entryChecks_iff]
  constructor
  · rintro ⟨hversion, ⟨hpoll, hvolume, hfits⟩, hnodup, htimes⟩
    exact ⟨hversion, hpoll, hvolume, ⟨fun _ _ => List.not_mem_nil, hnodup, htimes⟩, hfits,
      fun _ h => absurd h List.not_mem_nil⟩
  · rintro ⟨hversion, hpoll, hvolume, ⟨-, hnodup, htimes⟩, hfits, -⟩
    exact ⟨hversion, ⟨hpoll, hvolume, hfits⟩, hnodup, htimes⟩

/-- The check of a draft makes its checks one after the other. -/
theorem check_decides (draft : Draft) : Decides draft.checks draft.check := by
  unfold Draft.check Draft.checks
  dsimp only
  split
  · next hversion => exact Decides.of_not hversion
  next hversion =>
  refine Decides.cons (not_not.mp hversion) ?_
  split
  · next hpoll => exact Decides.of_not fun h => Settings.pollMs_pos_iff.mp h hpoll
  next hpoll =>
  refine Decides.cons (Settings.pollMs_pos_iff.mpr hpoll) ?_
  split
  · next hvolume => exact Decides.of_not fun h => hvolume ((Binary.inUnitInterval_iff _).mpr h)
  next hvolume =>
  refine Decides.cons ((Binary.inUnitInterval_iff _).mp (not_not.mp hvolume))
    (Decides.bind (checkEntries_decides fun _ => Iff.rfl) fun alarms _ => ?_)
  split
  · next hfits => exact Decides.cons hfits (Decides.ok_nil _)
  · next hfits => exact Decides.of_not hfits

theorem entry_injective : Function.Injective UserAlarm.entry := by
  rintro ⟨user, hour, minute⟩ ⟨user', hour', minute'⟩ h
  unfold UserAlarm.entry at h
  simp only [Entry.mk.injEq, Fin.val_inj] at h
  obtain ⟨rfl, rfl, rfl⟩ := h
  rfl

theorem users_of_entries (h : config.alarms.map UserAlarm.entry = draft.entries) :
    config.alarms.map UserAlarm.user = draft.entries.map Entry.user := by
  rw [← h, List.map_map]
  rfl

/-- What is accepted keeps the rules, and the configuration has its settings and its entries. -/
theorem check_eq_ok_iff : draft.check = .ok config ↔
    draft.KeepsRules ∧ config.settings = draft.settings ∧
      config.alarms.map UserAlarm.entry = draft.entries := by
  have hsays : ∀ {config}, draft.check = .ok config →
      config.settings = draft.settings ∧ config.alarms.map UserAlarm.entry = draft.entries := by
    intro config h
    unfold Draft.check at h
    dsimp only at h
    split at h
    · cases h
    split at h
    · cases h
    split at h
    · cases h
    obtain ⟨alarms, halarms, h⟩ := Json.bind_eq_ok.mp h
    split at h
    · cases h
      exact ⟨rfl, map_entry_of_checkEntries halarms⟩
    · cases h
  rw [Draft.keepsRules_iff, ← (check_decides draft).ok_iff]
  constructor
  · exact fun h => ⟨⟨config, h⟩, hsays h⟩
  · rintro ⟨⟨config', h⟩, hsettings, hentries⟩
    obtain ⟨hsettings', hentries'⟩ := hsays h
    have halarms : config'.alarms = config.alarms :=
      List.map_injective_iff.mpr entry_injective (hentries'.trans hentries.symm)
    have hconfig : config' = config := by
      cases config
      cases config'
      simp_all
    exact hconfig ▸ h

/-- A user whose entry is the only one has the alarm of this entry. -/
theorem alarmOf?_eq_some_iff (h : (config.alarms.map UserAlarm.user).Nodup) {user : String}
    {alarm : Alarm} : config.alarmOf? user = some alarm ↔ ⟨user, alarm⟩ ∈ config.alarms := by
  unfold alarmOf?
  rw [Option.map_eq_some_iff]
  constructor
  · rintro ⟨e, he, rfl⟩
    obtain rfl : e.user = user := by simpa using List.find?_some he
    exact List.mem_of_find?_eq_some he
  · intro hmem
    have hsome : (config.alarms.find? (·.user = user)).isSome = true :=
      List.find?_isSome.mpr ⟨_, hmem, by simp⟩
    obtain ⟨e, he⟩ := Option.isSome_iff_exists.mp hsome
    have huser : e.user = user := by simpa using List.find?_some he
    have heq : e = ⟨user, alarm⟩ :=
      List.inj_on_of_nodup_map h (List.mem_of_find?_eq_some he) hmem huser
    exact ⟨e, he, congrArg UserAlarm.alarm heq⟩

/-- A file that can be read is accepted exactly if what it says keeps the rules. The configuration
then has the settings of the file and its entries in their order, and the alarm of a user is that of
the only entry of this user. Of a file that breaks the rules the fault is that of the first check
that fails. -/
theorem checked_in_order (hread : shape.decoder.reader.parse text = .ok draft) :
    ((∃ config, parse text = .ok config) ↔ draft.KeepsRules) ∧
    (∀ config, parse text = .ok config →
      config.settings = draft.settings ∧ config.alarms.map UserAlarm.entry = draft.entries ∧
      ∀ user alarm, config.alarmOf? user = some alarm ↔
        ⟨user, alarm.hour, alarm.minute⟩ ∈ draft.entries) ∧
    ∀ fault, parse text = .error fault ↔ FirstFailing draft.checks fault := by
  have hparse : parse text = draft.check := by
    unfold parse
    rw [hread]
    rfl
  rw [hparse]
  refine ⟨?_, fun config h => ?_, fun fault => (check_decides draft).error_iff⟩
  · rw [(check_decides draft).ok_iff, Draft.keepsRules_iff]
  obtain ⟨hrules, hsettings, hentries⟩ := check_eq_ok_iff.mp h
  have hnodup : (config.alarms.map UserAlarm.user).Nodup :=
    users_of_entries hentries ▸ hrules.users_nodup
  refine ⟨hsettings, hentries, fun user alarm => ?_⟩
  rw [alarmOf?_eq_some_iff hnodup, ← hentries]
  exact (List.mem_map_of_injective entry_injective).symm

/-- Where the second entry has a time that no clock shows, this is what is reported, and neither the
user who is there again after it nor the tolerance that is too wide. -/
theorem checked_in_order_late_hour :
    let text := "\x7b\"version\":1,\"settings\":\x7b\"tolerance_ms\":60001\x7d,\"alarms\":[" ++
      "\x7b\"user_id\":\"uid-a\",\"hour\":7,\"minute\":0\x7d," ++
      "\x7b\"user_id\":\"uid-b\",\"hour\":24,\"minute\":0\x7d," ++
      "\x7b\"user_id\":\"uid-a\",\"hour\":8,\"minute\":0\x7d]\x7d"
    let draft : Draft := ⟨1, { Settings.defaults with toleranceMs := 60001 },
      [⟨"uid-a", 7, 0⟩, ⟨"uid-b", 24, 0⟩, ⟨"uid-a", 8, 0⟩]⟩
    shape.decoder.reader.parse text = .ok draft ∧
      parse text = .error (.badAlarm "uid-b" (.notTimeOfDay 24 0)) := by
  intro text draft
  have hread : shape.decoder.reader.parse text = .ok draft :=
    toOption_eq_some_iff.mp (by decide +kernel)
  have hvolume : ∃ q ∈ draft.settings.volume.value?, 0 ≤ q ∧ q ≤ 1 :=
    (Binary.inUnitInterval_iff Settings.fullVolume).mp (by decide)
  refine ⟨hread, ((checked_in_order hread).2.2 _).mpr ?_⟩
  -- The version, the poll interval, the volume and three checks of entries are passed.
  refine ⟨draft.checks.take 6, _, draft.checks.drop 7, rfl, ?_, fun h => absurd h.1 (by decide),
    rfl⟩
  have hpassed : draft.checks.take 6 = draft.checks.take 3 ++
      (Entry.checks [] ⟨"uid-a", 7, 0⟩ ++ [⟨"uid-b" ∉ ["uid-a"], .duplicateUser "uid-b"⟩]) := rfl
  rw [hpassed]
  simp only [Draft.checks, Entry.checks, List.take_succ_cons, List.take_zero,
    List.forall_mem_append, List.forall_mem_cons, List.not_mem_nil, IsEmpty.forall_iff,
    implies_true, and_true]
  exact ⟨⟨rfl, by decide, hvolume⟩, ⟨List.not_mem_nil, by decide⟩, by decide⟩

end Config

end Reveille
