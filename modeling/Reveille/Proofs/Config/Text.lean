import Reveille.Config.Text
import Reveille.Proofs.Config.Check
import Reveille.Proofs.Json.Collections
import Reveille.Proofs.Json.Singles

/-!
# Configuration files read back

What is written of settings, of an entry and of a whole file is read back member by member
(`Settings.decoder_reads`, `UserAlarm.decoder_reads`, `Config.decoder_reads`), the members standing
in alphabetical order in the file. A configuration that a file denotes keeps the rules
(`Config.isSound_of_parse`), and one that keeps them passes the check again
(`Config.IsSound.check_toDraft`). So the text of its file is parsed as the configuration
(`Config.IsSound.parse_fileText`).
-/

namespace Reveille

open Json

variable {style : Style} {depth : Nat}

/-! ## Settings -/

namespace Json

/-- A member that has not been given yet is the next one that is folded over. -/
theorem Shape.folds_cons {σ α β : Type} {shape : Shape σ α} {name : String} {get : σ → Option β}
    {set : σ → β → σ} {d : Decoder β} {b : β} {s t : σ} {v : Value}
    {entries : List (String × Value)}
    (hm : shape.member? name = some (.of name get set d)) (hs : get s = none)
    (hb : d.reader.Reads (v.write style depth) b)
    (h : Folds style depth shape.readMember (set s b) entries t) :
    Folds style depth shape.readMember s ((name, v) :: entries) t := by
  obtain ⟨r, hstep, hread⟩ := readMember_of hm hs hb
  exact .cons hstep hread h

theorem natural_reads {limit n : Nat} (wanted : String) (hn : n ≤ limit)
    (hlimit : limit ≤ 18446744073709551615) :
    (Decoder.natural limit wanted).reader.Reads ((Value.integer n).write style depth) n := by
  have hscalar : (Value.integer n).IsScalar := by
    show (-9223372036854775808 : Int) ≤ n ∧ (n : Int) ≤ 18446744073709551615
    omega
  refine Reader.reads_ofScalar (Value.scalar_reads hscalar style depth) ?_
  show (if (0 : Int) ≤ n ∧ (n : Int) ≤ limit then Except.ok (n : Int).toNat else _) = _
  rw [if_pos ⟨by omega, by omega⟩, Int.toNat_natCast]

theorem word64_reads (n : UInt64) :
    Decoder.word64.reader.Reads ((Settings.wordJson n).write style depth) n := by
  have hn : n.toNat ≤ 18446744073709551615 := Nat.le_of_lt_succ n.toNat_lt
  have hread : Decoder.word64.reader.Reads ((Settings.wordJson n).write style depth)
      (UInt64.ofNat n.toNat) := (natural_reads "u64" hn (Nat.le_refl _)).map UInt64.ofNat
  rwa [UInt64.ofNat_toNat] at hread

end Json

namespace Settings

/-- What is written of settings is read back. -/
theorem decoder_reads (hstyle : style.IsSpaced) (s : Settings) (hcanonical : s.volume.IsCanonical)
    (hvolume : s.volume.InUnitInterval) :
    shape.decoder.reader.Reads (s.json.write style depth) s := by
  refine Shape.decoder_reads hstyle (s := ⟨some s.pollMs, some s.toleranceMs, some s.lookbackMs,
    some s.ackWindowMs, some s.writeTimeoutMs, some s.volume⟩) ?_ rfl
  refine Shape.folds_cons rfl rfl (word64_reads s.ackWindowMs) ?_
  refine Shape.folds_cons rfl rfl (single_reads hcanonical hvolume) ?_
  refine Shape.folds_cons rfl rfl (word64_reads s.lookbackMs) ?_
  refine Shape.folds_cons rfl rfl (word64_reads s.pollMs) ?_
  refine Shape.folds_cons rfl rfl (word64_reads s.toleranceMs) ?_
  exact Shape.folds_cons rfl rfl (word64_reads s.writeTimeoutMs) (.nil _)

/-- The volume that has been read is canonical. -/
def Given.IsCanonical (g : Given) : Prop := ∀ x ∈ g.volume, x.IsCanonical

/-- The volume of settings that are read is canonical. -/
theorem decoder_yields : shape.decoder.reader.run.Yields fun s => s.volume.IsCanonical := by
  have hword : ∀ {name get} {set : Given → UInt64 → Given}, (∀ g n, (set g n).volume = g.volume) →
      (Member.of name get set .word64).Keeps Given.IsCanonical := fun hset =>
    Member.keeps_of _ _ (P := fun _ => True) (fun _ _ _ _ => trivial) fun g n hg _ x hx =>
      hg x (hset g n ▸ hx)
  have hvolume : (Member.of "forced_volume" Given.volume
      (fun g x => { g with volume := some x }) .single).Keeps Given.IsCanonical :=
    Member.keeps_of _ _ single_yields fun _ _ _ hx y hy => Option.some.inj hy ▸ hx
  refine Shape.decoder_yields (I := Given.IsCanonical) nofun ?_ fun g s hg h => ?_
  · simp only [shape, List.forall_mem_cons]
    exact ⟨hword fun _ _ => rfl, hword fun _ _ => rfl, hword fun _ _ => rfl, hword fun _ _ => rfl,
      hword fun _ _ => rfl, hvolume, nofun⟩
  · cases h
    show (g.volume.getD fullVolume).IsCanonical
    cases hx : g.volume with
    | none => exact Binary.isCanonical_ofInt 1 (by decide) (by decide)
    | some x => exact hg x hx

end Settings

/-! ## Entries -/

/-- How an entry is written. -/
def Config.Entry.json (e : Config.Entry) : Value := .object [
  ("hour", .integer e.hour), ("minute", .integer e.minute), ("user_id", .string e.user)]

/-- What is written of a user's alarm is read back. -/
theorem UserAlarm.decoder_reads (hstyle : style.IsSpaced) (e : UserAlarm) :
    Config.Entry.shape.decoder.reader.Reads (e.entry.json.write style depth) e.entry := by
  have huser : Decoder.text.reader.Reads ((Value.string e.user).write style (depth + 1)) e.user :=
    Reader.reads_ofScalar (Value.scalar_reads (v := .string e.user) trivial style (depth + 1)) rfl
  refine Shape.decoder_reads hstyle (s := ⟨some e.user, some e.alarm.hour, some e.alarm.minute⟩)
    ?_ rfl
  have hhour : (e.alarm.hour : Nat) ≤ 4294967295 := by omega
  have hminute : (e.alarm.minute : Nat) ≤ 4294967295 := by omega
  refine Shape.folds_cons rfl rfl (natural_reads "u32" hhour (by decide)) ?_
  refine Shape.folds_cons rfl rfl (natural_reads "u32" hminute (by decide)) ?_
  exact Shape.folds_cons rfl rfl huser (.nil _)

/-! ## Files -/

namespace Config

variable {config : Config}

/-- What a configuration's file says. -/
def toDraft (config : Config) : Draft :=
  ⟨version, config.settings, config.alarms.map UserAlarm.entry⟩

/-- What is written of a configuration is read as what its file says. -/
theorem decoder_reads (config : Config) (hcanonical : config.settings.volume.IsCanonical)
    (hvolume : config.settings.volume.InUnitInterval) :
    shape.decoder.reader.Reads (config.json.write .pretty 0) config.toDraft := by
  have hstyle := Style.isSpaced_pretty
  have hentries : (Decoder.list Entry.shape.decoder).reader.Reads
      ((Value.array ((config.alarms.map UserAlarm.entry).map Entry.json)).write .pretty 1)
      (config.alarms.map UserAlarm.entry) :=
    Decoder.list_reads hstyle (List.forall_mem_map.mpr fun e _ => e.decoder_reads hstyle)
  rw [List.map_map] at hentries
  refine Shape.decoder_reads hstyle (s := ⟨some version, some config.settings,
    some (config.alarms.map UserAlarm.entry)⟩) ?_ rfl
  refine Shape.folds_cons rfl rfl hentries ?_
  refine Shape.folds_cons rfl rfl (config.settings.decoder_reads hstyle hcanonical hvolume) ?_
  exact Shape.folds_cons rfl rfl (natural_reads "u32" (by decide) (by decide)) (.nil _)

/-- The volume of the settings that have been read is canonical. -/
def Given.IsCanonical (g : Given) : Prop := ∀ s ∈ g.settings, s.volume.IsCanonical

/-- The volume in a file that is read is canonical. -/
theorem decoder_yields :
    shape.decoder.reader.run.Yields fun draft => draft.settings.volume.IsCanonical := by
  refine Shape.decoder_yields (I := Given.IsCanonical) nofun ?_ fun g draft hg h => ?_
  · simp only [shape, List.forall_mem_cons]
    refine ⟨?_, ?_, ?_, nofun⟩
    · exact Member.keeps_of _ _ (P := fun _ => True) (fun _ _ _ _ => trivial) fun _ _ hg _ => hg
    · exact Member.keeps_of _ _ Settings.decoder_yields fun _ _ _ hs t ht =>
        Option.some.inj ht ▸ hs
    · exact Member.keeps_of _ _ (P := fun _ => True) (fun _ _ _ _ => trivial) fun _ _ hg _ => hg
  · obtain ⟨version, -, h⟩ := bind_eq_ok.mp h
    cases h
    show (g.settings.getD .defaults).volume.IsCanonical
    cases hs : g.settings with
    | none => exact Binary.isCanonical_ofInt 1 (by decide) (by decide)
    | some s => exact hg s hs

/-! ## Rules -/

/-- The configuration keeps every rule, and its volume is a number that can be read. -/
structure IsSound (config : Config) : Prop where
  pollMs_ne : config.settings.pollMs ≠ 0
  canonical : config.settings.volume.IsCanonical
  volume : config.settings.volume.InUnitInterval
  windowFits : config.settings.WindowFits
  users_nodup : (config.alarms.map UserAlarm.user).Nodup

variable {text : String} {draft : Draft}

theorem isSound_of_check (hcanonical : draft.settings.volume.IsCanonical)
    (h : draft.check = .ok config) : config.IsSound := by
  obtain ⟨hrules, hsettings, hentries⟩ := check_eq_ok_iff.mp h
  obtain ⟨hpoll, hvolume, hfits⟩ := Settings.isValid_iff.mp (hsettings ▸ hrules.settings)
  exact ⟨hpoll, hsettings ▸ hcanonical, hvolume, hfits,
    users_of_entries hentries ▸ hrules.users_nodup⟩

/-- A configuration that a file denotes keeps every rule. -/
theorem isSound_of_parse (h : parse text = .ok config) : config.IsSound := by
  obtain ⟨draft, hread, h⟩ := bind_eq_ok.mp h
  obtain ⟨⟨_, c⟩, hrun, heq⟩ := bind_eq_ok.mp (mapError_eq_ok.mp hread)
  dsimp only at heq
  split at heq
  · cases heq
    exact isSound_of_check (decoder_yields hrun) h
  · cases heq

/-- Configurations that keep every rule compare as equal exactly if they have the same alarms and
settings, the volumes being the same fraction. -/
theorem IsSound.sameAs_iff {a b : Config} (ha : a.IsSound) (hb : b.IsSound) : a.SameAs b ↔
    a.alarms = b.alarms ∧ a.settings = { b.settings with volume := a.settings.volume } ∧
      a.settings.volume.value? = b.settings.volume.value? := by
  obtain ⟨q, hq, -⟩ := (Binary.inUnitInterval_iff _).mp ha.volume
  unfold SameAs
  rw [Binary.sameValue_iff (by decide) ha.canonical hb.canonical hq, Option.mem_def.mp hq]
  simp only [eq_comm (a := some q)]

/-- What the file of a configuration says that keeps every rule is accepted. -/
theorem IsSound.check_toDraft (h : config.IsSound) : config.toDraft.check = .ok config := by
  have hsettings : config.settings.IsValid :=
    Settings.isValid_iff.mpr ⟨h.pollMs_ne, h.volume, h.windowFits⟩
  have htimes : ∀ e ∈ config.toDraft.entries, e.hour ≤ 23 ∧ e.minute ≤ 59 :=
    List.forall_mem_map.mpr fun e _ =>
      ⟨Nat.le_of_lt_succ e.alarm.hour.isLt, Nat.le_of_lt_succ e.alarm.minute.isLt⟩
  have husers : config.alarms.map UserAlarm.user = config.toDraft.entries.map Entry.user :=
    users_of_entries rfl
  exact check_eq_ok_iff.mpr ⟨⟨rfl, hsettings, husers ▸ h.users_nodup, htimes⟩, rfl, rfl⟩

/-- The text of a configuration's file is parsed as the configuration. -/
theorem IsSound.parse_fileText (h : config.IsSound) : parse config.fileText = .ok config := by
  have htext : config.fileText.toList = config.json.write .pretty 0 ++ ['\n'] := by
    simp [fileText, Value.pretty]
  have hread : shape.decoder.reader.parse config.fileText = .ok config.toDraft :=
    Reader.parse_of_reads (config.decoder_reads h.canonical h.volume) htext
      (List.forall_mem_singleton.mpr (by decide))
  unfold parse
  rw [hread]
  exact h.check_toDraft

end Config

end Reveille
