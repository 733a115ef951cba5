import EspLog.Forms

/-! The controller address on its way from its printed text through the setup page into the RAM and the EEPROM, and
back at the next start. A text that is printed is read back, but the page reads the first argument of its request. -/

namespace EspLog.HostAddress
open CText Eeprom Sketch Functions Websites WebServer Settings Storage Address Forms TextLength Restart Effects
open Buffer (served)

section Texts
variable (host old : Fin 4 → UInt8)

theorem number_decimal (byte : UInt8) : Number (decimal byte.toNat) byte :=
  ⟨decimal_digits _, decimal_ne_nil _, natOf_decimal _⟩

theorem dotted_eq : dotted host = [46].intercalate
    [decimal (host 0).toNat, decimal (host 1).toNat, decimal (host 2).toNat, decimal (host 3).toNat] := by
  have point : text "." = [46] := by decide
  simp [dotted, point, List.intercalate]

theorem dotted_length : (dotted host).length ≤ 19 := by
  have digits (i : Fin 4) : (decimal (host i).toNat).length ≤ 3 :=
    (length_decimal_le_iff _ 3 (by decide)).mpr ((host i).toNat_lt.trans (by decide))
  have point : (text ".").length = 1 := by decide
  have h0 := digits 0
  have h1 := digits 1
  have h2 := digits 2
  have h3 := digits 3
  simp only [dotted, List.length_append, point]
  omega

theorem dotted_filled : dotted host ≠ [] := by
  have first := decimal_ne_nil (host 0).toNat
  simp [dotted, first]

theorem octets_dotted : octets (dotted host) old = host := by
  have short := dotted_length host
  rw [dotted_eq] at short
  have tokens := strtok_dotted _ _ _ _ _ _ _ _ (number_decimal (host 0)) (number_decimal (host 1))
    (number_decimal (host 2)) (number_decimal (host 3)) short
  funext i
  rw [octets, dotted_eq, tokens]
  fin_cases i
  · exact octet_token _ _ (number_decimal (host 0))
  · exact octet_token _ _ (number_decimal (host 1))
  · exact octet_token _ _ (number_decimal (host 2))
  · exact octet_token _ _ (number_decimal (host 3))

theorem dotted_injective : Function.Injective dotted := by
  intro first second same
  rw [← octets_dotted first first, same, octets_dotted]

end Texts

section Stored
variable (s : Globals) (host : Fin 4 → UInt8)

/-- The bytes from which a start takes the address. -/
def flashed (s : Globals) : Fin 4 → UInt8 := fun i => s.eeprom.flash (adresseEepromFhemHost + i * 2)

theorem flashed_congr {s after : Globals} (same : after.eeprom = s.eeprom) : flashed after = flashed s := by
  unfold flashed
  rw [same]

theorem setup_host (boot : Setup.Boot) : valueOf (Setup.setup boot s.restart) .ip = flashed s := by
  funext i
  exact (setup_restored boot s.restart).fhemHost i i.isLt

/-- The address is the same in the RAM, in the open buffer and in the flash. -/
structure Ready : Prop where
  isOpen : Open s.eeprom
  ram : valueOf s .ip = host
  buffer : ∀ i : Fin 4, storedOctet s i = host i
  flash : flashed s = host

theorem host_inside (i : Fin 4) : adresseEepromFhemHost + i * 2 < opened := by
  unfold adresseEepromFhemHost opened
  omega

variable {s host}

theorem ready_commit (after : Globals) (e : EEPROMClass) (isOpen : Open e) (committed : after.eeprom = e.commit)
    (ram : valueOf after .ip = host) (buffer : ∀ i : Fin 4, e.data (adresseEepromFhemHost + i * 2) = host i) :
    Ready after host := by
  have settled := isOpen.commit
  refine ⟨committed ▸ settled.toOpen, ram, ?_, ?_⟩
  · intro i
    rw [storedOctet, committed, commit_data]
    exact buffer i
  · funext i
    rw [flashed, committed, settled.same _ (host_inside i), commit_data]
    exact buffer i

theorem Ready.put (ready : Ready s host) (setting : Setting) (isWord : setting ≠ .ip) (word : UInt32) (i : Fin 4) :
    (s.eeprom.put setting.address word).data (adresseEepromFhemHost + i * 2) = host i := by
  have fits : setting.address + 4 ≤ opened := by cases setting <;> decide
  have outside : adresseEepromFhemHost + i * 2 < setting.address ∨ setting.address + 4 ≤
      adresseEepromFhemHost + i * 2 := by
    cases setting <;>
    first
    | exact absurd rfl isWord
    | simp only [Setting.address, adresseEepromZK, adresseEepromCO, adresseEepromGL, adresseEepromFhemHost,
        adresseEepromFhemPort, adresseEepromOF]
      omega
  rw [ready.isOpen.put_data _ _ fits, ByteMemory.write32_outside _ _ _ _ outside]
  exact ready.buffer i

theorem Ready.set (ready : Ready s host) (setting : Setting) (isWord : setting ≠ .ip) (leading value : Str) :
    Ready (setting.set leading value s) host := by
  by_cases changes : setting.differs value s
  · have ram := set_other leading value s .ip setting isWord.symm
    exact ready_commit _ _ (ready.isOpen.put _ _) (set_eeprom leading value s setting isWord changes)
      (ram.trans ready.ram)
      (ready.put setting isWord _)
  · rw [set_same leading value s setting changes]
    exact ready

theorem Ready.setIp (ready : Ready s host) (leading value : Str) :
    Ready (setIp leading value s) (address leading value host) := by
  have ram := setIp_host leading value s
  rw [ready.ram] at ram
  by_cases same : value = dotted host
  · have kept : address leading value host = host := if_pos same
    have idle : Websites.setIp leading value s = s := by
      unfold Websites.setIp
      rw [fhemIp_eq, ready.ram, if_neg (not_not.mpr same)]
    rw [kept, idle]
    exact ready
  · have changes : value ≠ fhemIp s := by
      rw [fhemIp_eq, ready.ram]
      exact same
    have taken : address leading value host = octets leading host := if_neg same
    rw [taken] at ram ⊢
    apply ready_commit _ _ (setHostBytes_open _ (s, 0) ready.isOpen) (setIp_eeprom value s leading changes) ram
    intro i
    have data := setHostBytes_data (strtok 46 (toCharArray leading 20)) (s, 0) i
    rw [Nat.zero_add, ready.isOpen.size, if_pos (host_inside i)] at data
    refine data.trans ?_
    rw [octets, ← ready.buffer i]
    rfl

theorem Ready.clear (ready : Ready s host) : (clearTable s).eeprom.size = 0 ∧ flashed (clearTable s) = host := by
  rw [clearTable_eeprom]
  refine ⟨erased_size _, ?_⟩
  funext i
  have behind : 1491 ≤ adresseEepromFhemHost + i * 2 := by
    unfold adresseEepromFhemHost
    omega
  obtain ⟨isOpen, zeros⟩ :=
    Meter.zeros_behind (List.range tableSize) (fun j member => List.mem_range.mp member) s.eeprom
    ready.isOpen _ behind
  rw [flashed, clearTable_eeprom, erased, Meter.close_flash _ isOpen _ (host_inside i), zeros]
  exact ready.buffer i

end Stored

section Requests
variable (tmp : UInt32) (args : Arguments)

def submitted (host : Fin 4 → UInt8) : Fin 4 → UInt8 := address (firstValue args) (arg (text "ip") args) host

theorem Ready.argument {s : Globals} {host : Fin 4 → UInt8} (ready : Ready s host) (name : Str)
    (kept : name ≠ text "clrrom") :
    Ready (setupArgument tmp args name s) (if name = text "ip" then submitted args host else host) := by
  rcases setupArgument_cases tmp args name s with ⟨setting, rfl, sets⟩ | ⟨rfl, saves⟩ | ⟨rfl, _⟩ | ⟨unknown, idle⟩
  · rw [sets]
    by_cases ip : setting = .ip
    · subst ip
      have here : (if text Setting.ip.name = text "ip" then submitted args host else host) =
        submitted args host := if_pos rfl
      rw [here]
      exact ready.setIp _ _
    · have other : text setting.name ≠ text "ip" := fun named => ip (name_injective setting .ip named)
      rw [if_neg other]
      exact ready.set setting ip _ _
  · rw [saves, if_neg (by decide)]
    exact ⟨ready.isOpen, ready.ram, ready.buffer, ready.flash⟩
  · exact absurd rfl kept
  · have other : name ≠ text "ip" := unknown .ip
    rw [idle, if_neg other]
    exact ready

/-- An address is set before the table is cleared. -/
def Reaches (list : Arguments) : Prop :=
  ∃ entry ∈ list.takeWhile (fun entry => entry.1 ≠ text "clrrom"), entry.1 = text "ip"

instance (list : Arguments) : Decidable (Reaches list) := inferInstanceAs (Decidable (∃ entry ∈ _, _))

theorem run_closed (list : Arguments) (s : Globals) (closed : s.eeprom.size = 0) :
    (Runs.run (fun s (entry : Str × Str) => setupArgument tmp args entry.1 s) s list).eeprom = s.eeprom := by
  induction list generalizing s with
  | nil => rfl
  | cons entry later ih =>
    have same := setupArgument_closed s tmp args entry.1 closed
    rw [Runs.run_cons, ih _ (by rw [same]; exact closed), same]

/-- The bytes in the flash follow the RAM up to the first `clrrom`, which closes the buffer. -/
theorem run_flashed (list : Arguments) (s : Globals) (host : Fin 4 → UInt8) (ready : Ready s host) :
    flashed (Runs.run (fun s (entry : Str × Str) => setupArgument tmp args entry.1 s) s list) =
      if Reaches list then submitted args host else host := by
  induction list generalizing s host with
  | nil => exact ready.flash
  | cons entry later ih =>
    rw [Runs.run_cons]
    by_cases clears : entry.1 = text "clrrom"
    · have unreached : ¬Reaches (entry :: later) := by
        rw [Reaches, List.takeWhile_cons_of_neg (by simpa using clears)]
        simp
      obtain ⟨closed, flash⟩ := ready.clear
      rw [if_neg unreached, clears, setupArgument_clrrom]
      exact (flashed_congr (run_closed tmp args later _ closed)).trans flash
    · have first : Reaches (entry :: later) ↔ entry.1 = text "ip" ∨ Reaches later := by
        rw [Reaches, List.takeWhile_cons_of_pos (by simpa using clears), List.exists_mem_cons_iff]
        rfl
      rw [ih _ _ (ready.argument tmp args entry.1 clears)]
      by_cases ip : entry.1 = text "ip"
      · have twice : submitted args (submitted args host) = submitted args host := address_twice _ _ _
        rw [if_pos ip, if_pos (first.mpr (.inl ip)), twice, ite_self]
      · rw [if_neg ip]
        exact if_congr (first.trans (or_iff_right ip)).symm rfl rfl

/-- The variable, the text that is printed of it, and what any later start restores are this address. -/
structure RoundTrip (host : Fin 4 → UInt8) (after : Globals) : Prop where
  ram : valueOf after .ip = host
  printed : fhemIp after = dotted host
  restored : ∀ boot, valueOf (Setup.setup boot after.restart) .ip = host

theorem roundTrip_iff (host : Fin 4 → UInt8) (after : Globals) :
    RoundTrip host after ↔ valueOf after .ip = host ∧ flashed after = host := by
  constructor
  · intro trip
    exact ⟨trip.ram, (setup_host after ⟨0, fun _ _ => 0, ⟨0, 0, 0⟩⟩).symm.trans (trip.restored _)⟩
  · intro both
    obtain ⟨ram, flash⟩ := both
    exact ⟨ram, by rw [fhemIp_eq, ram], fun boot => (setup_host after boot).trans flash⟩

/-- The stored bytes of the address agree with the variable. -/
def Agrees (s : Globals) : Prop := ∀ i : Fin 4, storedOctet s i = s.fhemHost i ∧ flashed s i = s.fhemHost i

instance (s : Globals) : Decidable (Agrees s) := inferInstanceAs (Decidable (∀ _, _))

theorem reaches_taken (list : Arguments) (reaches : Reaches list) : ∃ entry ∈ list, entry.1 = text "ip" := by
  obtain ⟨entry, member, named⟩ := reaches
  exact ⟨entry, List.takeWhile_prefix _ |>.subset member, named⟩

/-- A request with the printed text of an address sets this address for good exactly when it is the present one, or
when the `ip` argument takes effect before the table is cleared and the text of the first argument gives this
address. -/
theorem address_round_trip_iff (s : Globals) (host : Fin 4 → UInt8) (isOpen : Open s.eeprom) (agrees : Agrees s)
    (printed : arg (text "ip") args = dotted host) : RoundTrip host (handleSetup tmp args s).sketch ↔
      fhemIp s = dotted host ∨ Reaches (served args) ∧ octets (firstValue args) (valueOf s .ip) = host := by
  have ready : Ready s (valueOf s .ip) := ⟨isOpen, rfl, fun i => (agrees i).1, funext fun i => (agrees i).2⟩
  have files := setupArguments_served tmp args s args
  have flash : flashed (handleSetup tmp args s).sketch =
      if Reaches (served args) then submitted args (valueOf s .ip) else valueOf s .ip :=
    (flashed_congr files.eeprom).trans (run_flashed tmp args (served args) s _ ready)
  have ram : valueOf (handleSetup tmp args s).sketch .ip =
      if Taken args .ip then submitted args (valueOf s .ip) else valueOf s .ip := handleSetup_value tmp args s .ip
  rw [roundTrip_iff, ram, flash, fhemIp_eq]
  by_cases same : dotted (valueOf s .ip) = dotted host
  · have kept : submitted args (valueOf s .ip) = valueOf s .ip := if_pos (printed.trans same.symm)
    have here := dotted_injective same
    rw [kept, ite_self, ite_self, here]
    exact iff_of_true ⟨rfl, rfl⟩ (.inl rfl)
  · have changed : submitted args (valueOf s .ip) = octets (firstValue args) (valueOf s .ip) :=
      if_neg fun present => same (present.symm.trans printed)
    have other : valueOf s .ip ≠ host := fun here => same (congrArg dotted here)
    rw [or_iff_right same, changed]
    by_cases reaches : Reaches (served args)
    · have taken : Taken args .ip := reaches_taken _ reaches
      rw [if_pos reaches, if_pos taken, and_self, and_iff_right reaches]
    · rw [if_neg reaches]
      exact iff_of_false (fun both => other both.2) fun both => reaches both.1

/-- A request that begins with the address, as the form of the page does, sets it for good. -/
theorem leading_address_round_trip (s : Globals) (host : Fin 4 → UInt8) (rest : Arguments) (isOpen : Open s.eeprom)
    (agrees : Agrees s) : RoundTrip host (handleSetup tmp ((text "ip", dotted host) :: rest) s).sketch := by
  have filled := dotted_filled host
  have named : arg (text "ip") ((text "ip", dotted host) :: rest) = dotted host := by simp [arg]
  have leads : firstValue ((text "ip", dotted host) :: rest) = dotted host := named
  apply (address_round_trip_iff tmp _ s host isOpen agrees named).mpr
  refine .inr ⟨⟨(text "ip", dotted host), ?_, rfl⟩, ?_⟩
  · have stays : text "ip" ≠ text "restart" := by decide
    have kept : text "ip" ≠ text "clrrom" := by decide
    rw [served, List.filter_cons_of_pos (by simpa using filled), List.takeWhile_cons_of_pos (by simpa using stays),
      List.takeWhile_cons_of_pos (by simpa using kept)]
    exact List.mem_cons_self
  · rw [leads]
    exact octets_dotted host _

end Requests

section Controller

def controller : Fin 4 → UInt8 := ![192, 168, 178, 20]

def controllerForm : Arguments :=
  [(text "ip", dotted controller), (text "port", text "8383"), (text "save", text "OK")]

theorem blank_agrees : Agrees (blank 0) := fun _ => ⟨rfl, rfl⟩

theorem controller_stored : RoundTrip controller (handleSetup 0 controllerForm (blank 0)).sketch := by
  apply (address_round_trip_iff 0 controllerForm (blank 0) controller (begin_settled rfl).toOpen
    blank_agrees rfl).mpr
  exact .inr ⟨by decide, octets_dotted controller _⟩

/-- With the port in front, the port becomes the first octet. -/
theorem port_taken_for_address : Open (blank 0).eeprom ∧ Agrees (blank 0) ∧
    arg (text "ip") [(text "port", text "8383"), (text "ip", dotted controller)] = dotted controller ∧
    ¬RoundTrip controller (handleSetup 0 [(text "port", text "8383"), (text "ip", dotted controller)]
      (blank 0)).sketch := by
  have printed : arg (text "ip") [(text "port", text "8383"), (text "ip", dotted controller)] =
      dotted controller := by
    decide
  refine ⟨(begin_settled rfl).toOpen, blank_agrees, printed, ?_⟩
  intro trip
  have first := congrFun trip.ram 0
  rw [handleSetup_value] at first
  revert first
  decide

end Controller
end EspLog.HostAddress
