import Reveille.Proofs.Instant.Text
import Reveille.Proofs.Json.Collections
import Reveille.Proofs.Json.Yields
import Reveille.Proofs.Records.History

/-!
# Record files read back

The text of a file that holds records is parsed as these records (`WakeupStore.parse_fileText`) :
the wake-up of a record is taken from its JSON members (`Wakeup.take_jsonMembers`), every record is
read back (`Record.decoder_reads`), and records that are in order stay as they are when they are
joined one after the other (`Records.ofList_toList`). So the records in memory are always those of
the file, and a store that is opened again is the store that was left
(`WakeupStore.agrees_with_file`).

A wake-up that is taken from an object is what the entries of its members' names say, whatever
others there are (`Wakeup.entries_of_takeObject`).
-/

namespace Reveille

open Json

/-! ## Wake-ups -/

theorem Instant.take_json (i : Instant) : Decoder.instant.take i.json = .ok i := by
  unfold Decoder.instant Decoder.scalar Instant.json
  dsimp only
  rw [String.toList_ofList, parse_rfc3339]
  rfl

namespace Acknowledgment

theorem member?_instant : shape.member? "ack_instant" = some
    (.of "ack_instant" Draft.instant (fun d i => { d with instant := some i }) .instant) :=
  rfl

theorem member?_photo : shape.member? "photo_reference" = some
    (.of "photo_reference" Draft.photo (fun d p => { d with photo := some p }) (.optional .text)) :=
  rfl

theorem take_json (a : Acknowledgment) : shape.decoder.take a.json = .ok a := by
  obtain ⟨i, photo⟩ := a
  have hinstant := Shape.takeMember_of (s := shape.draft) member?_instant rfl i.take_json
  cases photo with
  | none =>
    show shape.takeObject [("ack_instant", i.json)] = _
    simp only [Shape.takeObject, List.foldlM_cons, hinstant]
    rfl
  | some photo =>
    have hphoto := Shape.takeMember_of (s := { shape.draft with instant := some i })
      member?_photo rfl (Decoder.optional_take (v := .string photo) (by simp) rfl)
    show shape.takeObject [("ack_instant", i.json), ("photo_reference", .string photo)] = _
    simp only [Shape.takeObject, List.foldlM_cons, hinstant, bind, Except.bind, hphoto]
    rfl

end Acknowledgment

namespace Wakeup

theorem member?_instant : shape.member? "alarm_instant" = some
    (.of "alarm_instant" Draft.alarmInstant (fun d i => { d with alarmInstant := some i })
      .instant) :=
  rfl

theorem member?_acknowledgment : shape.member? "acknowledgment" = some
    (.of "acknowledgment" Draft.acknowledgment (fun d a => { d with acknowledgment := some a })
      (.optional Acknowledgment.shape.decoder)) :=
  rfl

/-- The acknowledgment of a wake-up is null where there is none. -/
theorem take_acknowledgment (a : Option Acknowledgment) :
    (Decoder.optional Acknowledgment.shape.decoder).take ((a.map Acknowledgment.json).getD .null) =
      .ok a := by
  cases a with
  | none => rfl
  | some a => exact Decoder.optional_take (by simp [Acknowledgment.json]) a.take_json

theorem take_jsonMembers (w : Wakeup) : shape.takeObject w.jsonMembers = .ok w := by
  have hinstant :=
    Shape.takeMember_of (s := shape.draft) member?_instant rfl w.alarmInstant.take_json
  have hack := Shape.takeMember_of (s := { shape.draft with alarmInstant := some w.alarmInstant })
    member?_acknowledgment rfl (take_acknowledgment w.acknowledgment)
  simp only [Shape.takeObject, jsonMembers, List.foldlM_cons, hinstant, bind, Except.bind, hack]
  rfl

theorem hasMember_instant : shape.HasMember "alarm_instant" Draft.alarmInstant
    (fun d i => { d with alarmInstant := some i }) .instant := by
  refine ⟨member?_instant, fun _ _ => rfl, ?_⟩
  simp only [shape, List.forall_mem_cons]
  exact ⟨fun h => absurd rfl h, fun _ => Member.spares_of _ _ _ fun _ _ => rfl, nofun⟩

theorem hasMember_acknowledgment : shape.HasMember "acknowledgment" Draft.acknowledgment
    (fun d a => { d with acknowledgment := some a })
    (.optional Acknowledgment.shape.decoder) := by
  refine ⟨member?_acknowledgment, fun _ _ => rfl, ?_⟩
  simp only [shape, List.forall_mem_cons]
  exact ⟨fun _ => Member.spares_of _ _ _ fun _ _ => rfl, fun h => absurd rfl h, nofun⟩

/-- A wake-up that is taken from an object has the instant and the acknowledgment that the entries
of these names say, the latter of which may be missing. -/
theorem entries_of_takeObject {entries : List (String × Value)} {w : Wakeup}
    (h : shape.takeObject entries = .ok w) :
    (∃ v, (Value.object entries).get? "alarm_instant" = some v ∧
        Decoder.instant.take v = .ok w.alarmInstant) ∧
      match (Value.object entries).get? "acknowledgment" with
      | some v => (Decoder.optional Acknowledgment.shape.decoder).take v = .ok w.acknowledgment
      | none => w.acknowledgment = none := by
  obtain ⟨d, hfold, hfinish⟩ := bind_eq_ok.mp h
  have hinstant := hasMember_instant.given_of_get? hfold rfl
  have hack := hasMember_acknowledgment.given_of_get? hfold rfl
  obtain ⟨i, hi, hw⟩ := bind_eq_ok.mp (mapError_eq_ok.mp hfinish)
  cases hw
  constructor
  · cases hv : (Value.object entries).get? "alarm_instant" with
    | none =>
      rw [hv] at hinstant
      rw [hinstant] at hi
      cases hi
    | some v =>
      rw [hv] at hinstant
      obtain ⟨j, hj, hgiven⟩ := hinstant
      rw [hgiven] at hi
      cases hi
      exact ⟨v, rfl, hj⟩
  · cases hv : (Value.object entries).get? "acknowledgment" with
    | none =>
      rw [hv] at hack
      exact congrArg Option.join hack
    | some v =>
      rw [hv] at hack
      obtain ⟨a, ha, hgiven⟩ := hack
      rw [hgiven]
      exact ha

/-- The members of a wake-up are values that are read back, and none of them is the user. -/
theorem readable_jsonMembers (w : Wakeup) : ∀ entry ∈ w.jsonMembers,
    entry.1 ≠ "user_id" ∧ entry.2.Readable Record.Draft.depth := by
  obtain ⟨i, ack⟩ := w
  have hack : ((ack.map Acknowledgment.json).getD .null).Readable Record.Draft.depth := by
    rcases ack with _ | ⟨j, photo⟩
    · exact Value.readable_null _
    · -- Of the depth that is left for a member, 125, an object and its scalars take two.
      show Value.Readable (123 + 2) _
      refine .object ?_
      cases photo <;> simp [Instant.json, Value.readable_string]
  simp [jsonMembers, Instant.json, Value.readable_string, hack]

end Wakeup

/-! ## Records -/

namespace Record

variable {style : Style} {depth : Nat}

theorem Draft.folds_others (hstyle : style.IsSpaced) : ∀ (entries : List (String × Value)),
    (∀ entry ∈ entries, entry.1 ≠ "user_id" ∧ entry.2.Readable Draft.depth) → ∀ d : Draft,
    Folds style depth Draft.readMember d entries { d with others := entries.reverse ++ d.others }
  | [], _, d => .nil d
  | (name, v) :: entries, h, d => by
    obtain ⟨hname, hv⟩ := h (name, v) List.mem_cons_self
    have ih := folds_others hstyle entries
      (fun entry hentry => h entry (List.mem_cons_of_mem _ hentry))
      { d with others := (name, v) :: d.others }
    rw [List.reverse_cons, List.append_assoc]
    exact .cons (if_neg hname) ((Value.reader_reads hstyle hv depth).map _) ih

/-- What is written of a record is read back. -/
theorem decoder_reads (hstyle : style.IsSpaced) (r : Record) :
    decoder.reader.Reads (r.json.write style depth) r := by
  obtain ⟨user, w⟩ := r
  have huser : Decoder.text.reader.Reads ((Value.string user).write style (depth + 1)) user :=
    Reader.reads_ofScalar (Value.scalar_reads (v := .string user) trivial style (depth + 1)) rfl
  have hfolds : Folds style (depth + 1) Draft.readMember Draft.empty
      (("user_id", .string user) :: w.jsonMembers) ⟨some user, w.jsonMembers.reverse ++ []⟩ :=
    .cons rfl (huser.map _) (Draft.folds_others hstyle _ w.readable_jsonMembers ⟨some user, []⟩)
  have hfinish : Draft.finish ⟨some user, w.jsonMembers.reverse ++ []⟩ = .ok ⟨user, w⟩ := by
    unfold Draft.finish
    dsimp only
    rw [List.append_nil, List.reverse_reverse, w.take_jsonMembers]
    rfl
  exact Reader.reads_dispatch_object ((object_reads hstyle hfolds).check hfinish)

end Record

namespace Records

/-- A record that comes after all others is put behind them. -/
theorem put_of_after {r : Record} : ∀ {l : List Record}, (∀ s ∈ l, s.Before r) → put r l = l ++ [r]
  | [], _ => rfl
  | s :: rest, h => by
    have hs : s.Before r := h s List.mem_cons_self
    have hnot : ¬ s.IsOf r.user r.wakeup.alarmInstant := fun hof =>
      not_isOf_of_before hs ⟨hof.1.symm, hof.2.symm⟩
    have hlt : ¬ r.Before s := fun hlt => Record.Before.irrefl r (hlt.trans hs)
    unfold put
    rw [if_neg hnot, if_neg hlt, put_of_after fun t ht => h t (List.mem_cons_of_mem s ht)]
    rfl

theorem toList_foldl_merge : ∀ {l : List Record} {rs : Records},
    (rs.toList ++ l).Pairwise Record.Before →
    (l.foldl (fun rs r => rs.merge r.user r.wakeup) rs).toList = rs.toList ++ l
  | [], rs, _ => by simp
  | r :: l, rs, h => by
    have hafter : ∀ s ∈ rs.toList, s.Before r := fun s hs =>
      (List.pairwise_append.mp h).2.2 s hs r List.mem_cons_self
    have hput : (rs.merge r.user r.wakeup).toList = rs.toList ++ [r] := put_of_after hafter
    rw [List.append_cons, ← hput] at h
    rw [List.foldl_cons, toList_foldl_merge h, hput, ← List.append_cons]

/-- Records in order stay as they are when they are joined one after the other. -/
theorem ofList_toList (rs : Records) : ofList rs.toList = rs := by
  have h : (ofList rs.toList).toList = rs.toList :=
    @toList_foldl_merge rs.toList empty rs.ordered
  obtain ⟨l, hl⟩ := rs
  generalize ofList l = built at h
  obtain ⟨l', hl'⟩ := built
  dsimp only at h
  subst h
  rfl

theorem member?_version : shape.member? "version" = some
    (.of "version" Given.version (fun g n => { g with version := some n }) .word32) :=
  rfl

theorem member?_wakeups : shape.member? "wakeups" = some
    (.of "wakeups" Given.entries (fun g es => { g with entries := some es })
      (.list Record.decoder)) :=
  rfl

/-- What is written of a file is read back. -/
theorem decoder_reads (rs : Records) :
    shape.decoder.reader.Reads (rs.json.write .pretty 0) (version, rs.toList) := by
  have hversion : Decoder.word32.reader.Reads ((Value.integer version).write .pretty 1) version :=
    Reader.reads_ofScalar
      (Value.scalar_reads (v := .integer version) ⟨by decide, by decide⟩ .pretty 1) rfl
  have hentries : (Decoder.list Record.decoder).reader.Reads
      ((Value.array (rs.toList.map Record.json)).write .pretty 1) rs.toList :=
    Decoder.list_reads Style.isSpaced_pretty fun r _ => Record.decoder_reads Style.isSpaced_pretty r
  obtain ⟨_, hstep, hread⟩ := Shape.readMember_of (s := shape.draft) member?_version rfl hversion
  obtain ⟨_, hstep', hread'⟩ := Shape.readMember_of
    (s := { shape.draft with version := some version }) member?_wakeups rfl hentries
  have hfolds : Folds .pretty 1 shape.readMember shape.draft
      [("version", .integer version), ("wakeups", .array (rs.toList.map Record.json))]
      ⟨some version, some rs.toList⟩ :=
    .cons hstep hread (.cons hstep' hread' (.nil _))
  exact Shape.decoder_reads Style.isSpaced_pretty hfolds rfl

end Records

/-! ## Stores -/

namespace WakeupStore

variable {s : WakeupStore} {path : String} {content : Except FileFault String}

/-- The text of a file is parsed as the records that it holds. -/
theorem parse_fileText (rs : Records) : parse rs.fileText = .ok rs := by
  have htext : rs.fileText.toList = rs.json.write .pretty 0 ++ ['\n'] := by
    simp [Records.fileText, Value.pretty]
  have hread : Records.shape.decoder.reader.parse rs.fileText =
      .ok (Records.version, rs.toList) :=
    Reader.parse_of_reads rs.decoder_reads htext (List.forall_mem_singleton.mpr (by decide))
  unfold parse
  rw [hread]
  show Except.ok (Records.ofList rs.toList) = _
  rw [Records.ofList_toList]

/-- What is found where the file of the store is. -/
def fileContent (s : WakeupStore) : Except FileFault String :=
  match s.file with
  | some text => .ok text
  | none => .error .missing

/-- The store is the one that is opened on its file. -/
def Agrees (s : WakeupStore) : Prop := load s.path s.fileContent = .ok s

theorem agrees_of_load (h : load path content = .ok s) : s.path = path ∧ s.Agrees := by
  unfold load at h
  split at h
  · obtain ⟨rs, hrs, hs⟩ := bind_eq_ok.mp h
    cases hs
    refine ⟨rfl, ?_⟩
    unfold Agrees load fileContent
    dsimp only
    rw [hrs]
    rfl
  · cases h
    exact ⟨rfl, rfl⟩
  · cases h

/-- The records of a store that agrees with its file are those of the file. -/
theorem parse_of_agrees (h : s.Agrees) :
    (∀ text, s.file = some text → parse text = .ok s.records) ∧
      (s.file = none → s.records = .empty) := by
  unfold Agrees load fileContent at h
  refine ⟨fun text htext => ?_, fun hnone => ?_⟩
  · rw [htext] at h
    obtain ⟨rs, hrs, hs⟩ := bind_eq_ok.mp h
    have hrecords : rs = s.records := congrArg records (Except.ok.inj hs)
    exact hrecords ▸ hrs
  · rw [hnone] at h
    exact (congrArg records (Except.ok.inj h)).symm

/-- An upsert keeps the store and its file together, whether it succeeds or not. -/
theorem agrees_make (h : s.Agrees) (u : Upsert) :
    (s.make u).2.path = s.path ∧ (s.make u).2.Agrees := by
  obtain ⟨-, hmake⟩ | ⟨fault, -, hmake⟩ := s.make_cases u <;> rw [hmake]
  · refine ⟨rfl, ?_⟩
    unfold Agrees load fileContent flush merge
    dsimp only
    rw [parse_fileText]
    rfl
  · exact ⟨rfl, h⟩

theorem agrees_upserts : ∀ (us : List Upsert) {s : WakeupStore}, s.Agrees →
    (s.upserts us).path = s.path ∧ (s.upserts us).Agrees
  | [], _, h => ⟨rfl, h⟩
  | u :: us, s, h => by
    obtain ⟨hpath, hnext⟩ := agrees_make h u
    obtain ⟨hpath', hall⟩ := agrees_upserts us hnext
    exact ⟨hpath'.trans hpath, hall⟩

/-- The text written of any records is parsed as these records. So after any upserts, whichever of
them fail, the records of a store are those that its file is parsed as, or none while there is no
file, and opening the file again yields the store. -/
theorem agrees_with_file :
    (∀ rs : Records, parse rs.fileText = .ok rs) ∧
      ∀ (path : String) (content : Except FileFault String) (s : WakeupStore),
        load path content = .ok s → ∀ us : List Upsert,
          let t := s.upserts us
          (∀ text, t.file = some text → parse text = .ok t.records) ∧
            (t.file = none → t.records = .empty) ∧
            load path t.fileContent = .ok t := by
  refine ⟨parse_fileText, fun path content s hload us => ?_⟩
  obtain ⟨rfl, hs⟩ := agrees_of_load hload
  obtain ⟨hpath, ht⟩ := agrees_upserts us hs
  obtain ⟨htext, hnone⟩ := parse_of_agrees ht
  exact ⟨htext, hnone, hpath ▸ ht⟩

/-- A user and a photo whose names must be escaped, and a write that fails after them. -/
theorem agrees_with_file_escaped :
    let us : List Upsert :=
      [⟨"a\"d\\a\n\x01", ⟨.epoch, some ⟨.epoch, some "\tphoto"⟩⟩, .ok ()⟩,
        ⟨"bob", .pending .epoch, .error .isDirectory⟩]
    ∃ s, load "wakeups" (.error .missing) = .ok s ∧ (s.upserts us).records.toList.length = 1 ∧
      ∃ text, (s.upserts us).file = some text ∧ parse text = .ok (s.upserts us).records := by
  intro us
  have hload : load "wakeups" (.error .missing) = .ok ⟨"wakeups", .empty, none⟩ := rfl
  exact ⟨_, hload, rfl, _, rfl, (agrees_with_file.2 _ _ _ hload us).1 _ rfl⟩

end WakeupStore

end Reveille
