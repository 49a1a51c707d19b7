import SiphonRtp.Srtp.GcmContext
import Mathlib.Data.List.Nodup
import Mathlib.Data.List.Perm.Basic

/-!
# Replay protection across rekeying

`replace_keys` takes over the entry of every key that was held with identical material, replay
window included, and makes a new entry for every other one. Because the MKIs of a held set are
distinct, a key has one entry (`keys_withReplay`), that entry is the one its packets are opened
with, and it survives every replacement that keeps the key (`mem_collectKeys`), whatever order
`swap_remove` leaves the others in.

`blockedUnder` is the filter of one key, wherever its entry stands. It only grows along a run that
keeps the key, so no index is accepted twice under it (`gcm_replay_survives_rekey`).
-/

set_option autoImplicit false

namespace SiphonRtp.Srtp

open Machine

/-! ### Removing an element -/

/-- `swap_remove` takes out one element and keeps the others, in another order. -/
theorem perm_swapRemove {α : Type*} {elements : List α} {position : ℕ} {element : α}
    (helement : elements[position]? = some element) :
    (element :: swapRemove elements position).Perm elements := by
  obtain ⟨hlt, hget⟩ := List.getElem?_eq_some_iff.mp helement
  rcases List.eq_nil_or_concat' elements with rfl | ⟨init, last, rfl⟩
  · simp at hlt
  · simp only [swapRemove, List.getLast?_concat]
    rw [List.length_append, List.length_singleton] at hlt
    by_cases hend : position = init.length
    · subst hend
      rw [List.getElem_concat_length rfl] at hget
      subst hget
      rw [List.set_append_right _ _ le_rfl, Nat.sub_self, List.set_cons_zero, List.dropLast_concat]
      exact (List.perm_append_singleton last init).symm
    · have hinside : position < init.length := by omega
      rw [List.getElem_append_left hinside] at hget
      have hsplit : init = init.take position ++ element :: init.drop (position + 1) := by
        rw [← hget, ← List.drop_eq_getElem_cons hinside, List.take_append_drop]
      rw [List.set_append_left _ _ hinside, List.dropLast_concat,
        List.set_eq_take_append_cons_drop, if_pos hinside]
      have hfront : (element :: (init.take position ++ last :: init.drop (position + 1))).Perm
          (element :: last :: (init.take position ++ init.drop (position + 1))) :=
        List.Perm.cons _ List.perm_middle
      have hback : (init ++ [last]).Perm
          (last :: element :: (init.take position ++ init.drop (position + 1))) := by
        refine (List.perm_append_singleton last init).trans (List.Perm.cons _ ?_)
        conv_lhs => rw [hsplit]
        exact List.perm_middle
      exact hfront.trans ((List.Perm.swap _ _ _).trans hback.symm)

/-! ### Key sets -/

theorem KeyEntry.isSameKey_iff {entry : KeyEntry} {master : FloorMasterKey} :
    entry.isSameKey master = true ↔ entry.master = master := by
  obtain ⟨⟨mki, masterKey, masterSalt⟩, _, _⟩ := entry
  obtain ⟨mki', masterKey', masterSalt'⟩ := master
  simp [KeyEntry.isSameKey]

namespace SrtcpGcmContext

variable (P : Primitives)

/-- The MKIs of a key set, oldest first. -/
def mkis (keys : List KeyEntry) : List UInt32 := keys.map (·.master.mki)

/-- The checks of `replace_keys` leave one or two keys with distinct MKIs. -/
theorem installed_of_check {keys : List FloorMasterKey}
    (hcheck : checkKeys (keptKeys keys) = .ok ()) :
    keptKeys keys ≠ [] ∧ (keptKeys keys).length ≤ 2 ∧
      ((keptKeys keys).map FloorMasterKey.mki).Nodup := by
  have hlength : (keptKeys keys).length ≤ 2 := by
    unfold keptKeys maxKeys
    rw [List.length_drop]
    omega
  generalize keptKeys keys = kept at hcheck hlength
  refine ⟨?_, hlength, ?_⟩
  · intro hnil
    simp [hnil, checkKeys] at hcheck
  match kept, hcheck, hlength with
  | [], _, _ => simp
  | [_], _, _ => simp
  | [first, second], hcheck, _ =>
    simp only [checkKeys] at hcheck
    split_ifs at hcheck with hsame
    simpa using hsame
  | _ :: _ :: _ :: _, _, hlength => simp at hlength

theorem masters_collectKeys (held : List KeyEntry) (kept : List FloorMasterKey) :
    (collectKeys P held kept).map (·.master) = kept := by
  induction kept generalizing held with
  | nil => rfl
  | cons master rest ih =>
    unfold collectKeys
    split
    · rename_i entry hfound
      have hsame : entry.isSameKey master = true := by simpa using List.find?_some hfound
      rw [List.map_cons, ih, KeyEntry.isSameKey_iff.mp hsame]
    · rw [List.map_cons, ih]
      rfl

theorem eq_of_mkis_nodup {keys : List KeyEntry} (hnodup : (mkis keys).Nodup)
    {first second : KeyEntry}
    (hfirst : first ∈ keys) (hsecond : second ∈ keys)
    (hmki : first.master.mki = second.master.mki) : first = second :=
  List.inj_on_of_nodup_map hnodup hfirst hsecond hmki

/-- A held entry survives a replacement that keeps its key. Assumes: the MKIs of the held keys are
distinct, and so are those of the new set. -/
theorem mem_collectKeys {held : List KeyEntry} {kept : List FloorMasterKey} {entry : KeyEntry}
    (hnodup : (mkis held).Nodup) (hkept : (kept.map FloorMasterKey.mki).Nodup)
    (hentry : entry ∈ held) (hmaster : entry.master ∈ kept) :
    entry ∈ collectKeys P held kept := by
  induction kept generalizing held with
  | nil => simp at hmaster
  | cons master rest ih =>
    rw [List.map_cons, List.nodup_cons] at hkept
    unfold collectKeys
    split
    · rename_i found hfound
      have hfits : found.isSameKey master = true := by simpa using List.find?_some hfound
      have hsame := KeyEntry.isSameKey_iff.mp hfits
      have hheld := List.mem_of_find?_eq_some hfound
      rw [List.find?_eq_getElem?_findIdx] at hfound
      have hperm := perm_swapRemove hfound
      by_cases hhead : entry.master = master
      · have heq : entry = found :=
          eq_of_mkis_nodup hnodup hentry hheld (by rw [hhead, hsame])
        rw [heq]
        exact List.mem_cons_self
      · have hrest : entry.master ∈ rest := (List.mem_cons.mp hmaster).resolve_left hhead
        have hother : entry ≠ found := fun heq ↦ hhead (by rw [heq, hsame])
        have hleft : entry ∈ swapRemove held (held.findIdx (·.isSameKey master)) :=
          (List.mem_cons.mp (hperm.mem_iff.mpr hentry)).resolve_left hother
        have hdistinct : (mkis (swapRemove held (held.findIdx (·.isSameKey master)))).Nodup := by
          have hmap := (hperm.map fun other : KeyEntry ↦ other.master.mki).nodup_iff.mpr hnodup
          rw [List.map_cons, List.nodup_cons] at hmap
          exact hmap.2
        exact List.mem_cons_of_mem _ (ih hdistinct hkept.2 hleft hrest)
    · rename_i hnone
      have hhead : entry.master ≠ master := fun heq ↦
        List.find?_eq_none.mp hnone entry hentry (KeyEntry.isSameKey_iff.mpr heq)
      have hrest : entry.master ∈ rest := (List.mem_cons.mp hmaster).resolve_left hhead
      exact List.mem_cons_of_mem _ (ih hnodup hkept.2 hentry hrest)

/-- With distinct MKIs, replacing the window of the entry an MKI names changes that entry and no
other. -/
theorem keys_withReplay {context : SrtcpGcmContext} (hnodup : (mkis context.keys).Nodup)
    {mki : UInt32} {entry : KeyEntry}
    (hentry : context.keys.find? (·.master.mki == mki) = some entry) (replay : ReplayWindow) :
    (context.withReplay mki entry replay).keys =
      context.keys.map fun other ↦
        if other.master.mki = mki then { other with replay } else other := by
  obtain ⟨keys, sendIndex, exhausted⟩ := context
  simp only [withReplay] at hnodup hentry ⊢
  induction keys with
  | nil => simp at hentry
  | cons head rest ih =>
    rw [mkis, List.map_cons, List.nodup_cons] at hnodup
    by_cases hhead : head.master.mki = mki
    · have hfirst : head = entry := by simpa [hhead] using hentry
      subst hfirst
      have hothers : rest.map (fun other ↦ if other.master.mki = mki then { other with replay }
          else other) = rest := by
        refine Eq.trans (List.map_congr_left ?_) (List.map_id rest)
        intro other hother
        have hne : other.master.mki ≠ mki := fun heq ↦
          hnodup.1 (List.mem_map.mpr ⟨other, hother, heq.trans hhead.symm⟩)
        rw [if_neg hne]
        rfl
      rw [List.map_cons, hothers]
      simp [List.findIdx_cons, hhead]
    · have hrest : rest.find? (·.master.mki == mki) = some entry := by
        simpa [hhead] using hentry
      have hbeq : (head.master.mki == mki) = false := by simpa using hhead
      rw [List.map_cons, if_neg hhead, ← ih hnodup.2 hrest, List.findIdx_cons, hbeq]
      rfl

end SrtcpGcmContext

/-! ### The installed set -/

/-- The key set after a call: a replacement that passes its checks installs the keys it keeps. -/
def GcmCall.installs (current : List FloorMasterKey) : GcmCall → List FloorMasterKey
  | .replaceKeys keys =>
    if (SrtcpGcmContext.checkKeys (SrtcpGcmContext.keptKeys keys)).isOk then
      SrtcpGcmContext.keptKeys keys
    else current
  | _ => current

/-- The key set installed before position `k` of a run. -/
def installedBefore (start : List FloorMasterKey) (calls : List GcmCall) (k : ℕ) :
    List FloorMasterKey :=
  (calls.take k).foldl GcmCall.installs start

theorem installedBefore_succ {start : List FloorMasterKey} {calls : List GcmCall} {k : ℕ}
    {input : GcmCall} (hinput : calls[k]? = some input) :
    installedBefore start calls (k + 1) = input.installs (installedBefore start calls k) := by
  unfold installedBefore
  rw [List.take_add_one, hinput, List.foldl_append]
  rfl

namespace SrtcpGcmContext

variable (P : Primitives)

/-- A context holds an installed set: its entries are those keys in order, each with the session
derived from it, one or two of them with distinct MKIs. -/
structure Holds (installed : List FloorMasterKey) (context : SrtcpGcmContext) : Prop where
  masters : context.keys.map (·.master) = installed
  derived : ∀ entry ∈ context.keys, entry.session = .derive P entry.master
  nonempty : installed ≠ []
  bound : installed.length ≤ 2
  distinct : (installed.map FloorMasterKey.mki).Nodup

variable {P} {context : SrtcpGcmContext} {installed : List FloorMasterKey}

theorem Holds.mkis_nodup (hholds : Holds P installed context) : (mkis context.keys).Nodup := by
  have hmap : mkis context.keys = installed.map FloorMasterKey.mki := by
    rw [← hholds.masters, List.map_map]
    rfl
  rw [hmap]
  exact hholds.distinct

theorem Holds.exists_entry (hholds : Holds P installed context) {master : FloorMasterKey}
    (hmaster : master ∈ installed) : ∃ entry ∈ context.keys, entry.master = master := by
  rw [← hholds.masters] at hmaster
  exact List.mem_map.mp hmaster

/-- The indices refused under one key, wherever its entry stands. -/
def blockedUnder (master : FloorMasterKey) (context : SrtcpGcmContext) : Set ℕ :=
  {index | ∃ entry ∈ context.keys, entry.master = master ∧ index ∈ entry.replay.blocked}

theorem keys_protect (P : Primitives) (context : SrtcpGcmContext) (rtcp : Bytes) (encrypt : Bool) :
    (context.protect P rtcp encrypt).2.keys = context.keys := by
  rcases context.protect_cases P rtcp encrypt with ⟨_, heq⟩ | ⟨_, _, -, -, -, heq⟩
  · rw [heq]
  · rw [heq]
    split_ifs
    · rfl
    · rfl

/-- The session derived from each held key is kept by a replacement. -/
theorem derived_collectKeys {held : List KeyEntry} {kept : List FloorMasterKey}
    (hheld : ∀ entry ∈ held, entry.session = .derive P entry.master) :
    ∀ entry ∈ collectKeys P held kept, entry.session = .derive P entry.master := by
  induction kept generalizing held with
  | nil => simp [collectKeys]
  | cons master rest ih =>
    intro entry hentry
    unfold collectKeys at hentry
    split at hentry
    · rename_i found hfound
      have hin := List.mem_of_find?_eq_some hfound
      rw [List.find?_eq_getElem?_findIdx] at hfound
      have hperm := perm_swapRemove hfound
      cases List.mem_cons.mp hentry with
      | inl hhead => exact hheld entry (hhead ▸ hin)
      | inr hrest =>
        apply ih _ entry hrest
        intro other hother
        exact hheld other (hperm.mem_iff.mp (List.mem_cons_of_mem _ hother))
    · cases List.mem_cons.mp hentry with
      | inl hhead =>
        rw [hhead]
        rfl
      | inr hrest => exact ih hheld entry hrest

/-- An accepted packet verifies under the entry its MKI names, whose window did not refuse it, and
that entry alone records the index. -/
theorem unprotect_ok_keys (hnodup : (mkis context.keys).Nodup) {srtcp plain : Bytes}
    (hok : (context.unprotect P srtcp).1 = .ok plain) :
    ∃ entry ∈ context.keys, entry.master.mki = packetMki srtcp ∧
      entry.replay.isReplay (packetSrtcpIndex srtcp) = false ∧
      entry.session.verify P (srtcp.take (srtcp.length - floorMkiLen)) = some plain ∧
      (context.unprotect P srtcp).2.keys = context.keys.map fun other ↦
        if other.master.mki = packetMki srtcp then
          { other with replay := entry.replay.record (packetSrtcpIndex srtcp) }
        else other := by
  rcases context.unprotect_cases P srtcp with
    ⟨_, heq⟩ | ⟨entry, opened, hentry, hfresh, hverify, heq⟩
  · simp [heq] at hok
  · have hmki : entry.master.mki = packetMki srtcp := by simpa using List.find?_some hentry
    have hplain : opened = plain := by simpa [heq] using hok
    refine ⟨entry, List.mem_of_find?_eq_some hentry, hmki, hfresh, hplain ▸ hverify, ?_⟩
    rw [heq]
    exact keys_withReplay hnodup hentry _

/-- A context fresh from its keys holds the ones it keeps. -/
theorem holds_of_new {keys : List FloorMasterKey} (hnew : new P keys = .ok context) :
    Holds P (keptKeys keys) context := by
  unfold SrtcpGcmContext.new at hnew
  rcases replaceKeys_cases P { keys := [], sendIndex := 0, exhausted := false } keys with
    ⟨_, -, heq⟩ | ⟨hcheck, heq⟩
  · simp [heq] at hnew
  · rw [heq] at hnew
    obtain rfl := Except.ok.inj hnew
    obtain ⟨hnonempty, hbound, hdistinct⟩ := installed_of_check hcheck
    exact ⟨masters_collectKeys P [] _, derived_collectKeys (by simp), hnonempty, hbound, hdistinct⟩

/-- A set that is held passes the checks it was installed under. -/
theorem Holds.check (hholds : Holds P installed context) :
    keptKeys installed = installed ∧ checkKeys installed = .ok () := by
  have hnonempty := hholds.nonempty
  have hbound := hholds.bound
  have hdistinct := hholds.distinct
  constructor
  · unfold keptKeys maxKeys
    rw [Nat.sub_eq_zero_of_le hbound, List.drop_zero]
  · match installed with
    | [] => exact absurd rfl hnonempty
    | [_] => rfl
    | [first, second] =>
      have hmki : first.mki ≠ second.mki := by simpa using hdistinct
      exact if_neg hmki
    | _ :: _ :: _ :: _ => simp at hbound

/-- Another window for one entry changes nothing about the set held. -/
theorem Holds.withReplay (hholds : Holds P installed context) {mki : UInt32} {entry : KeyEntry}
    (hentry : context.keys.find? (·.master.mki == mki) = some entry) (replay : ReplayWindow) :
    Holds P installed (context.withReplay mki entry replay) := by
  have hkeys := keys_withReplay hholds.mkis_nodup hentry replay
  refine ⟨?_, ?_, hholds.nonempty, hholds.bound, hholds.distinct⟩
  · rw [hkeys, List.map_map]
    refine Eq.trans (List.map_congr_left ?_) hholds.masters
    intro other _
    dsimp only [Function.comp_apply]
    split_ifs
    · rfl
    · rfl
  · intro other hother
    rw [hkeys] at hother
    obtain ⟨held, hheld, rfl⟩ := List.mem_map.mp hother
    have hderived := hholds.derived held hheld
    split_ifs
    · exact hderived
    · exact hderived

/-- One call keeps a context to its installed set. -/
theorem Holds.call (hholds : Holds P installed context) (input : GcmCall) :
    Holds P (input.installs installed) (context.call P input).2 := by
  cases input with
  | protect rtcp encrypt =>
    have hkeys : (context.call P (.protect rtcp encrypt)).2.keys = context.keys :=
      keys_protect P context rtcp encrypt
    refine ⟨?_, ?_, hholds.nonempty, hholds.bound, hholds.distinct⟩
    · rw [hkeys]
      exact hholds.masters
    · rw [hkeys]
      exact hholds.derived
  | unprotect srtcp =>
    simp only [SrtcpGcmContext.call]
    rcases context.unprotect_cases P srtcp with ⟨_, heq⟩ | ⟨entry, _, hentry, -, -, heq⟩
    · rw [heq]
      exact hholds
    · rw [heq]
      exact hholds.withReplay hentry _
  | replaceKeys keys =>
    simp only [SrtcpGcmContext.call, GcmCall.installs]
    rcases context.replaceKeys_cases P keys with ⟨_, hcheck, heq⟩ | ⟨hcheck, heq⟩
    · rw [heq, hcheck]
      exact hholds
    · obtain ⟨hnonempty, hbound, hdistinct⟩ := installed_of_check hcheck
      rw [heq, hcheck]
      exact ⟨masters_collectKeys P context.keys (keptKeys keys), derived_collectKeys hholds.derived,
        hnonempty, hbound, hdistinct⟩

/-- What a key refuses, it refuses after every call that keeps the key. -/
theorem Holds.blockedUnder_subset (hholds : Holds P installed context) {master : FloorMasterKey}
    {input : GcmCall} (hkept : master ∈ input.installs installed) :
    blockedUnder master context ⊆ blockedUnder master (context.call P input).2 := by
  rintro index ⟨entry, hentry, rfl, hblocked⟩
  cases input with
  | protect rtcp encrypt =>
    have hkeys : (context.call P (.protect rtcp encrypt)).2.keys = context.keys :=
      keys_protect P context rtcp encrypt
    exact ⟨entry, hkeys ▸ hentry, rfl, hblocked⟩
  | unprotect srtcp =>
    cases hresult : (context.unprotect P srtcp).1 with
    | error error =>
      rw [context.call_of_error P (.unprotect srtcp) hresult]
      exact ⟨entry, hentry, rfl, hblocked⟩
    | ok plain =>
      obtain ⟨named, hnamed, hmki, hfresh, -, hkeys⟩ :=
        unprotect_ok_keys hholds.mkis_nodup hresult
      have hmem := List.mem_map_of_mem (f := fun other : KeyEntry ↦
        if other.master.mki = packetMki srtcp then
          { other with replay := named.replay.record (packetSrtcpIndex srtcp) }
        else other) hentry
      rw [← hkeys] at hmem
      refine ⟨_, hmem, ?_⟩
      split_ifs with hsame
      · -- the entry is the one the packet names, and its window has grown
        have heq : entry = named :=
          eq_of_mkis_nodup hholds.mkis_nodup hentry hnamed (hsame.trans hmki.symm)
        refine ⟨rfl, ?_⟩
        rw [ReplayWindow.blocked_record, ← heq]
        exact subset_admitted hblocked
      · exact ⟨rfl, hblocked⟩
  | replaceKeys keys =>
    simp only [SrtcpGcmContext.call, GcmCall.installs] at hkept ⊢
    rcases context.replaceKeys_cases P keys with ⟨_, hcheck, heq⟩ | ⟨hcheck, heq⟩
    · rw [heq]
      exact ⟨entry, hentry, rfl, hblocked⟩
    · rw [heq]
      rw [hcheck] at hkept
      have hdistinct := (installed_of_check hcheck).2.2
      exact ⟨entry, mem_collectKeys P hholds.mkis_nodup hdistinct hentry hkept, rfl, hblocked⟩

/-- A packet accepted under a held key verifies under it, its index was not refused before and is
refused afterwards. -/
theorem Holds.accepted (hholds : Holds P installed context) {master : FloorMasterKey}
    (hmaster : master ∈ installed) {srtcp plain : Bytes} (hmki : packetMki srtcp = master.mki)
    (hok : (context.unprotect P srtcp).1 = .ok plain) :
    (GcmSession.derive P master).verify P (srtcp.take (srtcp.length - floorMkiLen)) = some plain ∧
      packetSrtcpIndex srtcp ∉ blockedUnder master context ∧
      packetSrtcpIndex srtcp ∈ blockedUnder master (context.unprotect P srtcp).2 := by
  obtain ⟨entry, hentry, rfl⟩ := hholds.exists_entry hmaster
  obtain ⟨named, hnamed, hsame, hfresh, hverify, hkeys⟩ := unprotect_ok_keys hholds.mkis_nodup hok
  have heq : entry = named :=
    eq_of_mkis_nodup hholds.mkis_nodup hentry hnamed (hmki.symm.trans hsame.symm)
  subst heq
  refine ⟨?_, ?_, ?_⟩
  · rw [← hholds.derived entry hentry]
    exact hverify
  · rintro ⟨other, hother, hmaster, hblocked⟩
    have hone : other = entry :=
      eq_of_mkis_nodup hholds.mkis_nodup hother hentry (congrArg FloorMasterKey.mki hmaster)
    rw [hone, ReplayWindow.mem_blocked, hfresh] at hblocked
    exact Bool.false_ne_true hblocked
  · refine ⟨{ entry with replay := entry.replay.record (packetSrtcpIndex srtcp) }, ?_, rfl, ?_⟩
    · rw [hkeys]
      exact List.mem_map.mpr ⟨entry, hentry, if_pos hsame⟩
    · rw [ReplayWindow.blocked_record]
      exact mem_admitted_self

/-- Before every position of a run a context holds the set installed there. -/
theorem holds_run {start : List FloorMasterKey} (hholds : Holds P start context)
    {calls : List GcmCall} {k : ℕ} (hk : k ≤ calls.length) :
    Holds P (installedBefore start calls k) (final (call P) context (calls.take k)) := by
  refine final_take_induction (fun k state ↦ Holds P (installedBefore start calls k) state)
    hholds ?_ hk
  intro k input hinput hbefore
  rw [installedBefore_succ hinput]
  exact hbefore.call input

/-- What a key refuses at a position of a run, it refuses at every later one. Assumes: the key is in
every set installed. -/
theorem blockedUnder_mono {start : List FloorMasterKey} (hholds : Holds P start context)
    {calls : List GcmCall} {master : FloorMasterKey}
    (hstays : ∀ k, master ∈ installedBefore start calls k) {i j : ℕ} (hij : i ≤ j)
    (hj : j ≤ calls.length) :
    blockedUnder master (final (call P) context (calls.take i)) ⊆
      blockedUnder master (final (call P) context (calls.take j)) := by
  induction j, hij using Nat.le_induction with
  | base => exact subset_rfl
  | succ j _ ih =>
    have hinput : calls[j]? = some calls[j] := List.getElem?_eq_getElem hj
    have hkept := hstays (j + 1)
    rw [installedBefore_succ hinput] at hkept
    rw [final_take_succ _ hinput]
    exact (ih (Nat.le_of_succ_le hj)).trans
      ((holds_run hholds (Nat.le_of_succ_le hj)).blockedUnder_subset hkept)

end SrtcpGcmContext

/-! ### Every interleaving of calls -/

section Run

variable (P : Primitives) {context : SrtcpGcmContext}

open SrtcpGcmContext

/-- Replay protection survives rekeying. Assumes: a context fresh from its keys, and any
interleaving of calls on it. Under a key that is in every installed set, accepted packets are
authenticated and no index is accepted twice; before every position the context holds one or two
keys with distinct MKIs, those of the last replacement that succeeded, and seals under the last of
them; and a replacement that fails can be left out of the run without any other result changing. -/
theorem gcm_replay_survives_rekey {keys : List FloorMasterKey}
    (hnew : SrtcpGcmContext.new P keys = .ok context) (calls : List GcmCall) :
    let state := fun k ↦ final (call P) context (calls.take k)
    let results := outputs (call P) context calls
    let installed := installedBefore (keptKeys keys) calls
    (∀ master, (∀ k, master ∈ installed k) → ∀ (i j : ℕ) first second plain plain', i < j →
        calls[i]? = some (.unprotect first) → calls[j]? = some (.unprotect second) →
          packetMki first = master.mki → packetMki second = master.mki →
            results[i]? = some (.ok plain) → results[j]? = some (.ok plain') →
              (GcmSession.derive P master).verify P (second.take (second.length - floorMkiLen)) =
                  some plain' ∧
                packetSrtcpIndex first ≠ packetSrtcpIndex second) ∧
      (∀ k ≤ calls.length, (state k).keys.map (·.master) = installed k ∧
        (state k).keys ≠ [] ∧ (state k).keys.length ≤ 2 ∧ (mkis (state k).keys).Nodup ∧
        ∀ rtcp encrypt out, ((state k).protect P rtcp encrypt).1 = .ok out →
          ∃ sending text, (installed k).getLast? = some sending ∧
            (GcmSession.derive P sending).seal P rtcp encrypt (state k).sendIndex = .ok text ∧
            out = text ++ toBe 4 sending.mki.toNat) ∧
      ∀ (k : ℕ) keys' error, calls[k]? = some (.replaceKeys keys') →
        results[k]? = some (.error error) →
        outputs (call P) context (calls.eraseIdx k) = results.eraseIdx k := by
  intro state results installed
  have hstart := holds_of_new hnew
  have hholds : ∀ k ≤ calls.length, Holds P (installed k) (state k) := by
    intro k hk
    exact holds_run hstart hk
  refine ⟨?_, ?_, ?_⟩
  · intro master hstays i j first second plain plain' hij hfirst hsecond hmki hmki' hok hok'
    have hi : i < calls.length := (List.getElem?_eq_some_iff.mp hfirst).1
    have hj : j < calls.length := (List.getElem?_eq_some_iff.mp hsecond).1
    have hopened : ((state i).unprotect P first).1 = .ok plain :=
      output_at (call P) hfirst hok
    have hopened' : ((state j).unprotect P second).1 = .ok plain' :=
      output_at (call P) hsecond hok'
    obtain ⟨-, -, hrecorded⟩ := (hholds i hi.le).accepted (hstays i) hmki hopened
    obtain ⟨hverify, hopen, -⟩ := (hholds j hj.le).accepted (hstays j) hmki' hopened'
    refine ⟨hverify, ?_⟩
    -- what position `i` recorded is still refused at `j`
    intro hsame
    apply hopen
    rw [← hsame]
    apply blockedUnder_mono hstart hstays (Nat.succ_le_of_lt hij) hj.le
    rw [final_take_succ _ hfirst]
    exact hrecorded
  · intro k hk
    have hheld := hholds k hk
    have hlength : (state k).keys.length = (installed k).length := by
      rw [← hheld.masters, List.length_map]
    refine ⟨hheld.masters, ?_, ?_, hheld.mkis_nodup, ?_⟩
    · intro hnil
      apply hheld.nonempty
      rw [← hheld.masters, hnil]
      rfl
    · rw [hlength]
      exact hheld.bound
    · intro rtcp encrypt out hok
      rcases (state k).protect_cases P rtcp encrypt with
        ⟨_, heq⟩ | ⟨entry, text, -, hlast, hseal, heq⟩
      · simp [heq] at hok
      · refine ⟨entry.master, text, ?_, ?_, ?_⟩
        · rw [← hheld.masters, List.getLast?_map, hlast]
          rfl
        · rw [← hheld.derived entry (List.mem_of_getLast? hlast)]
          exact hseal
        · simpa [heq] using hok.symm
  · intro k keys' error hcall herror
    have hfails : ((state k).call P (.replaceKeys keys')).1 = .error error :=
      output_at (call P) hcall herror
    exact outputs_eraseIdx (call P) hcall context ((state k).call_of_error P _ hfails)

end Run

/-- A packet under the sample key, with nothing in it but its index. -/
def samplePacket (index : ℕ) : Bytes :=
  bareRtcp ++ List.replicate 16 0 ++ toBe 4 index ++ toBe 4 sampleMaster.mki.toNat

/-- Two packets accepted under one key that is replaced by itself between them have two indices. -/
theorem gcm_replay_survives_sample_rekey :
    let calls : List GcmCall := [.unprotect (samplePacket 5), .replaceKeys [sampleMaster],
      .unprotect (samplePacket 6)]
    let results := outputs (SrtcpGcmContext.call transparent) (sampleContext transparent) calls
    results[0]? = some (.ok bareRtcp) ∧ results[2]? = some (.ok bareRtcp) ∧
      SrtcpGcmContext.packetSrtcpIndex (samplePacket 5) ≠
        SrtcpGcmContext.packetSrtcpIndex (samplePacket 6) := by
  intro calls results
  have hfirst : results[0]? = some (.ok bareRtcp) := by decide
  have hsecond : results[2]? = some (.ok bareRtcp) := by decide
  have hstays : ∀ k, sampleMaster ∈
      installedBefore (SrtcpGcmContext.keptKeys [sampleMaster]) calls k := by
    intro k
    match k with
    | 0 => decide
    | 1 => decide
    | 2 => decide
    | k + 3 =>
      unfold installedBefore
      rw [List.take_of_length_le (Nat.le_add_left 3 k)]
      decide
  exact ⟨hfirst, hsecond, ((gcm_replay_survives_rekey transparent (new_sampleMaster transparent)
    calls).1 sampleMaster hstays 0 2 _ _ _ _ (by decide) rfl rfl (by decide) (by decide) hfirst
    hsecond).2⟩

end SiphonRtp.Srtp
