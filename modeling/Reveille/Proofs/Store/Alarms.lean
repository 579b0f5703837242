import Reveille.Proofs.Config.Text
import Reveille.Store.Alarms

/-!
# The alarm store and its file

Saving an alarm replaces the entry of its user, or adds one at the end, and leaves all others as
they are (`Config.alarmOf?_setAlarm`, `Config.users_setAlarm`). What is saved keeps the rules of
configurations, so the store and its file stay together however the writing of files ends
(`AlarmStore.keeps_with_file`).
-/

namespace Reveille

/-! ## Setting an alarm -/

namespace Config

/-- The users who have an entry, in the order of their entries. -/
def users (config : Config) : List String := config.alarms.map UserAlarm.user

/-- Users with one more at the end, unless he is among them. -/
def enrol (users : List String) (user : String) : List String :=
  if user ∈ users then users else users ++ [user]

theorem enrol_nodup {users : List String} (h : users.Nodup) (user : String) :
    (enrol users user).Nodup := by
  unfold enrol
  split
  · exact h
  · next hnew =>
    refine List.nodup_append.mpr ⟨h, List.pairwise_singleton _ user, ?_⟩
    rintro v hv _ hmem rfl
    exact hnew (List.mem_singleton.mp hmem ▸ hv)

theorem prefix_foldl_enrol (users more : List String) : users <+: more.foldl enrol users := by
  induction more generalizing users with
  | nil => exact List.prefix_refl users
  | cons user more ih =>
    have hone : users <+: enrol users user := by
      unfold enrol
      split
      · exact List.prefix_refl users
      · exact List.prefix_append users [user]
    exact hone.trans (ih (enrol users user))

theorem map_user_putAlarm (user : String) (alarm : Alarm) : ∀ entries : List UserAlarm,
    (putAlarm user alarm entries).map UserAlarm.user = enrol (entries.map UserAlarm.user) user
  | [] => rfl
  | e :: rest => by
    have ih := map_user_putAlarm user alarm rest
    unfold putAlarm
    by_cases he : e.user = user
    · rw [if_pos he]
      exact (if_pos (he ▸ List.mem_cons_self)).symm
    · rw [if_neg he, List.map_cons, ih, List.map_cons]
      unfold enrol
      by_cases hmem : user ∈ rest.map UserAlarm.user
      · rw [if_pos hmem, if_pos (List.mem_cons_of_mem _ hmem)]
      · rw [if_neg hmem, if_neg]
        · rfl
        · rintro (_ | ⟨_, hmem'⟩)
          · exact he rfl
          · exact hmem hmem'

theorem users_setAlarm (config : Config) (user : String) (alarm : Alarm) :
    (config.setAlarm user alarm).users = enrol config.users user :=
  map_user_putAlarm user alarm config.alarms

theorem find?_putAlarm (user : String) (alarm : Alarm) (user' : String) :
    ∀ entries : List UserAlarm,
    ((putAlarm user alarm entries).find? (·.user = user')).map UserAlarm.alarm =
      if user = user' then some alarm
      else (entries.find? (·.user = user')).map UserAlarm.alarm
  | [] => by
    unfold putAlarm
    by_cases hu : user = user'
    · simp [hu]
    · simp [hu]
  | e :: rest => by
    have ih := find?_putAlarm user alarm user' rest
    unfold putAlarm
    by_cases he : e.user = user
    · rw [if_pos he]
      by_cases hu : user = user'
      · simp [he, hu]
      · simp [he, hu]
    · rw [if_neg he]
      by_cases hu : e.user = user'
      · have hne : ¬ user = user' := fun h => he (hu.trans h.symm)
        simp [hu, hne]
      · rw [List.find?_cons_of_neg (by simpa using hu), ih,
          List.find?_cons_of_neg (by simpa using hu)]

/-- Setting an alarm is noticed by its user only. -/
theorem alarmOf?_setAlarm (config : Config) (user : String) (alarm : Alarm) (user' : String) :
    (config.setAlarm user alarm).alarmOf? user' =
      if user = user' then some alarm else config.alarmOf? user' :=
  find?_putAlarm user alarm user' config.alarms

/-- A configuration keeps the rules when an alarm is set. -/
theorem IsSound.setAlarm {config : Config} (h : config.IsSound) (user : String) (alarm : Alarm) :
    (config.setAlarm user alarm).IsSound := by
  refine ⟨h.pollMs_ne, h.canonical, h.volume, h.windowFits, ?_⟩
  show (config.setAlarm user alarm).users.Nodup
  rw [users_setAlarm]
  exact enrol_nodup h.users_nodup user

end Config

/-! ## Saving alarms -/

/-- An alarm to be saved for a user, and how writing the file ends. -/
structure Saving where
  user : String
  alarm : Alarm
  write : Write

namespace AlarmStore

/-- The reply to an attempt to save an alarm, and the store after it. -/
def attempt (s : AlarmStore) (v : Saving) : Except StoreFault Unit × AlarmStore :=
  match s.save v.user v.alarm v.write with
  | .ok s => (.ok (), s)
  | .error fault => (.error fault, s)

/-- The store after attempts to save alarms, one after the other. -/
def saves (s : AlarmStore) : List Saving → AlarmStore
  | [] => s
  | v :: vs => (s.attempt v).2.saves vs

/-- The alarms that have been saved. -/
def saved (s : AlarmStore) : List Saving → List Saving
  | [] => []
  | v :: vs =>
    match s.attempt v with
    | (.ok _, s) => v :: s.saved vs
    | (.error _, s) => s.saved vs

/-- The alarm that a user has saved last. -/
def lastOf? (user : String) (vs : List Saving) : Option Alarm :=
  (vs.filter (·.user = user)).getLast?.map Saving.alarm

theorem lastOf?_cons (user : String) (v : Saving) (vs : List Saving) : lastOf? user (v :: vs) =
    (lastOf? user vs).or (if v.user = user then some v.alarm else none) := by
  unfold lastOf?
  by_cases hv : v.user = user
  · rw [if_pos hv, List.filter_cons_of_pos (by simpa using hv), List.getLast?_cons]
    cases (vs.filter (·.user = user)).getLast? <;> rfl
  · rw [if_neg hv, List.filter_cons_of_neg (by simpa using hv), Option.or_none]

variable {s : AlarmStore}

/-- An attempt succeeds if the file is written, and otherwise changes nothing. -/
theorem attempt_cases (s : AlarmStore) (v : Saving) :
    (v.write = .ok () ∧ s.attempt v = (.ok (), ⟨s.path, s.config.setAlarm v.user v.alarm,
      some (s.config.setAlarm v.user v.alarm).fileText⟩)) ∨
    ∃ fault, v.write = .error fault ∧
      s.attempt v = (.error (.config (.unwritable s.path fault)), s) := by
  obtain ⟨user, alarm, write⟩ := v
  cases write with
  | ok _ => exact .inl ⟨rfl, rfl⟩
  | error fault => exact .inr ⟨fault, rfl, rfl⟩

/-- The configuration keeps the rules, and it is what the file denotes. -/
structure Agrees (s : AlarmStore) : Prop where
  isSound : s.config.IsSound
  file : ∃ text, s.file = some text ∧ Config.parse text = .ok s.config

/-- What stays of a store, and what attempts change. -/
theorem agrees_saves : ∀ (vs : List Saving) {s : AlarmStore}, s.Agrees →
    (s.saves vs).Agrees ∧ (s.saves vs).path = s.path ∧
      (s.saves vs).config.settings = s.config.settings ∧
      (∀ user, (s.saves vs).alarmOf? user = (lastOf? user (s.saved vs)).or (s.alarmOf? user)) ∧
      (s.saves vs).config.users =
        ((s.saved vs).map Saving.user).foldl Config.enrol s.config.users
  | [], s, h => ⟨h, rfl, rfl, fun _ => rfl, rfl⟩
  | v :: vs, s, h => by
    unfold saves saved
    obtain ⟨-, hattempt⟩ | ⟨fault, -, hattempt⟩ := s.attempt_cases v <;> rw [hattempt]
    · have hsound := h.isSound.setAlarm v.user v.alarm
      obtain ⟨hagrees, hpath, hsettings, halarms, husers⟩ :=
        agrees_saves vs (s := ⟨s.path, s.config.setAlarm v.user v.alarm, _⟩)
          ⟨hsound, _, rfl, hsound.parse_fileText⟩
      refine ⟨hagrees, hpath, hsettings, fun user => ?_, ?_⟩
      · rw [halarms user, lastOf?_cons, Option.or_assoc]
        congr 1
        refine (s.config.alarmOf?_setAlarm v.user v.alarm user).trans ?_
        split <;> rfl
      · rw [husers, Config.users_setAlarm]
        rfl
    · exact agrees_saves vs h

/-! ## The theorem -/

/-- A store that is opened with a text that denotes a configuration, after any attempts to save
alarms. The file denotes the configuration in memory, and the settings are those of the beginning.
Each user has the alarm that he has saved last, or the one of the beginning. The users are all
different, those of the beginning followed by others in the order in which they have first saved an
alarm. An attempt succeeds if the file is written, and otherwise it fails and changes nothing. -/
theorem keeps_with_file (path text : String) (config : Config)
    (hparse : Config.parse text = .ok config) (vs : List Saving) :
    let initial : AlarmStore := ⟨path, config, some text⟩
    let s := initial.saves vs
    let saved := initial.saved vs
    load path (.ok text) = .ok initial ∧
      (∃ file, s.file = some file ∧ Config.parse file = .ok s.config) ∧
      s.config.settings = config.settings ∧
      (∀ user, s.alarmOf? user = (lastOf? user saved).or (config.alarmOf? user)) ∧
      s.config.users.Nodup ∧ config.users <+: s.config.users ∧
      s.config.users = (saved.map Saving.user).foldl Config.enrol config.users ∧
      (∀ v, v.write = .ok () → (s.attempt v).1 = .ok ()) ∧
      ∀ v fault, v.write = .error fault →
        s.attempt v = (.error (.config (.unwritable path fault)), s) := by
  intro initial s saved
  have hinitial : initial.Agrees := ⟨Config.isSound_of_parse hparse, text, rfl, hparse⟩
  obtain ⟨hs, hpath, hsettings, halarms, husers⟩ := agrees_saves vs hinitial
  have hload : load path (.ok text) = .ok initial := by
    show (Config.parse text >>= fun config => _) = _
    rw [hparse]
    rfl
  have hstart : config.users <+: s.config.users := by
    rw [husers]
    exact Config.prefix_foldl_enrol _ _
  refine ⟨hload, hs.file, hsettings, halarms, hs.isSound.users_nodup, hstart, husers, ?_, ?_⟩
  · intro v hv
    obtain ⟨-, hattempt⟩ | ⟨fault, hfault, -⟩ := s.attempt_cases v
    · rw [hattempt]
    · rw [hv] at hfault
      cases hfault
  · intro v fault hv
    obtain ⟨hok, -⟩ | ⟨fault', hfault, hattempt⟩ := s.attempt_cases v
    · rw [hv] at hok
      cases hok
    · rw [hv] at hfault
      cases hfault
      rw [hattempt, show s.path = path from hpath]

/-- A file with a volume that has no end in binary, a member that is unknown and a user with a line
feed and a quotation mark in his name, whose first attempt fails. -/
theorem keeps_with_file_quoted :
    let text := "\x7b\"version\": 1, \"settings\": \x7b\"forced_volume\": 0.3, \"theme\": [null]"
      ++ "\x7d, \"alarms\": [\x7b\"user_id\": \"a\\n\\\"b\", \"hour\": 6, \"minute\": 30\x7d]\x7d"
    let settings := { Settings.defaults with volume := .finite false 10066330 (-25) }
    let config : Config := ⟨settings, [⟨"a\n\"b", ⟨6, 30⟩⟩]⟩
    let vs : List Saving := [⟨"a\n\"b", ⟨7, 0⟩, .error .isDirectory⟩, ⟨"c", ⟨7, 15⟩, .ok ()⟩,
      ⟨"a\n\"b", ⟨8, 0⟩, .ok ()⟩]
    Config.parse text = .ok config ∧
      ∃ file, (saves ⟨"reveille.json", config, some text⟩ vs).file = some file ∧
        Config.parse file = .ok ⟨settings, [⟨"a\n\"b", ⟨8, 0⟩⟩, ⟨"c", ⟨7, 15⟩⟩]⟩ := by
  intro text settings config vs
  have hparse : Config.parse text = .ok config := by decide +kernel
  obtain ⟨-, hfile, -⟩ := keeps_with_file "reveille.json" text config hparse vs
  exact ⟨hparse, hfile⟩

end AlarmStore

end Reveille
