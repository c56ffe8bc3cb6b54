import Controller.Lib.JavaString
import Mathlib.Tactic

/-!
# `DeviceListActivity`

The activity shows the bonded devices and those a discovery finds in two lists of texts.  A row for
a device is its name, a line break and its address; a tap on a row returns the last 17 characters
of its text.  Rows that stand for the absence of devices are added to the same lists.

`rows_tap_iff`: whatever the names are, all rows shown return the address of the device they were
made from if and only if there is a bonded device and every `ACTION_DISCOVERY_FINISHED` comes after
a device that is not bonded was found.  `no_devices_found_throws` and `no_devices_paired_returns`
are the taps on the two other rows.

`Row.device` is not in the program: it records what a row was made from.
-/

namespace Controller

open JavaString

/-- A remote device; its name may be `null`. -/
structure BluetoothDevice where
  getName : Option JavaString
  getAddress : JavaString
  length_address : getAddress.length = 17

/-- `BluetoothDevice.getBondState`. -/
inductive BondState
  | none
  | bonding
  | bonded
  deriving DecidableEq

/-- The broadcasts the activity is registered for. -/
inductive Broadcast
  | found (device : BluetoothDevice) (bondState : BondState)
  | discoveryFinished

/-- A row of a list: its text, and the device it was made from. -/
structure Row where
  text : JavaString
  device : Option BluetoothDevice

/-- The row `device.getName() + "\n" + device.getAddress()`; `null` is appended as a word. -/
def deviceRow (device : BluetoothDevice) : Row where
  text := device.getName.getD (ofAscii "null") ++ ofAscii "\n" ++ device.getAddress
  device := some device

/-- The row with `R.string.none_paired`. -/
def nonePaired : Row := ⟨ofAscii "No devices have been paired", none⟩

/-- The row with `R.string.none_found`. -/
def noneFound : Row := ⟨ofAscii "No devices found", none⟩

/-- The two lists, and the result of the activity: `RESULT_CANCELED` or the address with
`RESULT_OK`. -/
structure DeviceListActivity where
  mPairedDevicesArrayAdapter : List Row
  mNewDevicesArrayAdapter : List Row
  result : Option JavaString
  finished : Bool

namespace DeviceListActivity

/-- `onCreate`. -/
def onCreate (pairedDevices : List BluetoothDevice) : DeviceListActivity where
  mPairedDevicesArrayAdapter :=
    if pairedDevices.length > 0 then pairedDevices.map deviceRow else [nonePaired]
  mNewDevicesArrayAdapter := []
  result := none
  finished := false

/-- `mReceiver.onReceive`. -/
def onReceive (a : DeviceListActivity) : Broadcast → DeviceListActivity
  | .found device bondState =>
    if bondState ≠ .bonded then
      { a with mNewDevicesArrayAdapter := a.mNewDevicesArrayAdapter ++ [deviceRow device] }
    else a
  | .discoveryFinished =>
    if a.mNewDevicesArrayAdapter.length = 0 then
      { a with mNewDevicesArrayAdapter := a.mNewDevicesArrayAdapter ++ [noneFound] }
    else a

/-- `mDeviceClickListener.onItemClick`; `none` when it throws. -/
def onItemClick (a : DeviceListActivity) (v : Row) : Option DeviceListActivity :=
  let info := v.text
  (substring info (info.length - 17)).map fun address =>
    { a with result := some address, finished := true }

/-- The activity after the broadcasts `bs`. -/
def shown (bonded : List BluetoothDevice) (bs : List Broadcast) : DeviceListActivity :=
  bs.foldl onReceive (onCreate bonded)

/-- All rows. -/
def rows (a : DeviceListActivity) : List Row :=
  a.mPairedDevicesArrayAdapter ++ a.mNewDevicesArrayAdapter

/-- A tap on the row throws no exception, and an address it returns is that of the device the row
was made from. -/
def Taps (a : DeviceListActivity) (row : Row) : Prop :=
  ∃ a', a.onItemClick row = some a' ∧
    ∀ address, a'.result = some address → ∃ d, row.device = some d ∧ address = d.getAddress

end DeviceListActivity

open DeviceListActivity

/-- The device for which a broadcast adds a row. -/
def Broadcast.newDevice : Broadcast → Option BluetoothDevice
  | .found device bondState => if bondState ≠ .bonded then some device else none
  | .discoveryFinished => none

/-! ### Taps -/

/-- The row of a device returns its address, whatever its name is. -/
theorem deviceRow_taps (a : DeviceListActivity) (d : BluetoothDevice) : a.Taps (deviceRow d) := by
  have hsub := substring_last (d.getName.getD (ofAscii "null") ++ ofAscii "\n") d.getAddress
    d.length_address
  rw [Nat.cast_ofNat] at hsub
  refine ⟨{ a with result := some d.getAddress, finished := true }, ?_, ?_⟩
  · simp only [onItemClick, deviceRow, hsub, Option.map_some]
  · rintro address ⟨⟩
    exact ⟨d, rfl, rfl⟩

theorem nonePaired_not_taps (a : DeviceListActivity) : ¬ a.Taps nonePaired := by
  rintro ⟨a', ha', h⟩
  have hsub : substring nonePaired.text (nonePaired.text.length - 17) =
      some (ofAscii " have been paired") := by decide
  simp only [onItemClick, hsub, Option.map_some, Option.some.injEq] at ha'
  subst ha'
  obtain ⟨d, hd, -⟩ := h _ rfl
  cases hd

theorem noneFound_not_taps (a : DeviceListActivity) : ¬ a.Taps noneFound := by
  rintro ⟨a', ha', -⟩
  have hsub : substring noneFound.text (noneFound.text.length - 17) = none := by decide
  simp only [onItemClick, hsub, Option.map_none] at ha'
  cases ha'

/-! ### The rows of a run -/

section Receive

variable {a : DeviceListActivity} {b : Broadcast} {d : BluetoothDevice}

theorem onReceive_new (h : b.newDevice = some d) : a.onReceive b =
    { a with mNewDevicesArrayAdapter := a.mNewDevicesArrayAdapter ++ [deviceRow d] } := by
  cases b with
  | found device bondState =>
    simp only [Broadcast.newDevice] at h
    split_ifs at h with hs
    cases h
    exact if_pos hs
  | discoveryFinished => cases h

theorem onReceive_other (h : b.newDevice = none) (ha : a.mNewDevicesArrayAdapter ≠ []) :
    a.onReceive b = a := by
  cases b with
  | found device bondState =>
    simp only [Broadcast.newDevice] at h
    split_ifs at h with hs
    exact if_neg hs
  | discoveryFinished => exact if_neg fun hlen => ha (List.length_eq_zero_iff.1 hlen)

theorem onReceive_paired (a : DeviceListActivity) (b : Broadcast) :
    (a.onReceive b).mPairedDevicesArrayAdapter = a.mPairedDevicesArrayAdapter := by
  cases b with
  | found device bondState => simp only [onReceive]; split_ifs <;> rfl
  | discoveryFinished => simp only [onReceive]; split_ifs <;> rfl

end Receive

theorem foldl_paired (a : DeviceListActivity) (bs : List Broadcast) :
    (bs.foldl onReceive a).mPairedDevicesArrayAdapter = a.mPairedDevicesArrayAdapter := by
  induction bs generalizing a with
  | nil => rfl
  | cons b bs ih => rw [List.foldl_cons, ih, onReceive_paired]

/-- Once the second list has a row, only devices are added to it. -/
theorem foldl_new {a : DeviceListActivity} (h : a.mNewDevicesArrayAdapter ≠ [])
    (bs : List Broadcast) : (bs.foldl onReceive a).mNewDevicesArrayAdapter =
      a.mNewDevicesArrayAdapter ++ (bs.filterMap Broadcast.newDevice).map deviceRow := by
  induction bs generalizing a with
  | nil => simp
  | cons b bs ih =>
    rw [List.foldl_cons]
    cases hb : b.newDevice with
    | none => rw [onReceive_other hb h, ih h, List.filterMap_cons_none hb]
    | some d =>
      rw [onReceive_new hb, ih (by simp), List.filterMap_cons_some hb]
      simp

/-- A discovery finishes before a device was found that is not bonded. -/
def finishesEmpty : List Broadcast → Bool
  | [] => false
  | .found _ bondState :: bs => if bondState ≠ .bonded then false else finishesEmpty bs
  | .discoveryFinished :: _ => true

/-- The rows of the second list, from its beginning. -/
theorem foldl_new_empty {a : DeviceListActivity} (h : a.mNewDevicesArrayAdapter = [])
    (bs : List Broadcast) : (bs.foldl onReceive a).mNewDevicesArrayAdapter =
      (if finishesEmpty bs then [noneFound] else []) ++
        (bs.filterMap Broadcast.newDevice).map deviceRow := by
  induction bs with
  | nil => simpa [finishesEmpty] using h
  | cons b bs ih =>
    rw [List.foldl_cons]
    cases b with
    | found d s =>
      by_cases hs : s = .bonded
      · have hstep : a.onReceive (.found d s) = a := if_neg (not_not.2 hs)
        rw [hstep, ih]
        simp [Broadcast.newDevice, finishesEmpty, hs]
      · have hb : (Broadcast.found d s).newDevice = some d := if_pos hs
        rw [onReceive_new hb, foldl_new (by simp), List.filterMap_cons_some hb]
        simp [finishesEmpty, hs, h]
    | discoveryFinished =>
      have hstep : a.onReceive .discoveryFinished = _ := if_pos (by rw [h]; rfl)
      rw [hstep, foldl_new (by simp), List.filterMap_cons_none rfl]
      simp [finishesEmpty, h]

theorem finishesEmpty_eq_false_iff (bs : List Broadcast) : finishesEmpty bs = false ↔
    ∀ pre post, bs = pre ++ .discoveryFinished :: post → ∃ b ∈ pre, b.newDevice.isSome := by
  induction bs with
  | nil => simp [finishesEmpty]
  | cons b bs ih =>
    cases b with
    | discoveryFinished =>
      refine ⟨fun h => (Bool.noConfusion h : False).elim, fun h => ?_⟩
      obtain ⟨b, hb, -⟩ := h [] bs rfl
      cases hb
    | found d s =>
      by_cases hs : s = .bonded
      · have hnone : (Broadcast.found d s).newDevice = none := if_neg (not_not.2 hs)
        have hstep : finishesEmpty (.found d s :: bs) = finishesEmpty bs := if_neg (not_not.2 hs)
        rw [hstep, ih]
        constructor
        · intro h pre post hbs
          obtain ⟨rfl, -⟩ | ⟨pre', rfl, hbs'⟩ := List.cons_eq_append_iff.1 hbs
          · cases hbs
          · obtain ⟨b, hb, hsome⟩ := h pre' post hbs'
            exact ⟨b, List.mem_cons_of_mem _ hb, hsome⟩
        · rintro h pre post rfl
          obtain ⟨b, hb, hsome⟩ := h (.found d s :: pre) post rfl
          rcases List.mem_cons.1 hb with rfl | hb
          · rw [hnone] at hsome
            cases hsome
          · exact ⟨b, hb, hsome⟩
      · have hsome : (Broadcast.found d s).newDevice = some d := if_pos hs
        have hstep : finishesEmpty (.found d s :: bs) = false := if_pos hs
        refine ⟨fun _ pre post hbs => ?_, fun _ => hstep⟩
        obtain ⟨rfl, h⟩ | ⟨pre', rfl, -⟩ := List.cons_eq_append_iff.1 hbs
        · cases h
        · exact ⟨_, List.mem_cons_self, by rw [hsome]; rfl⟩

/-- All rows of the activity. -/
theorem rows_shown (bonded : List BluetoothDevice) (bs : List Broadcast) :
    (shown bonded bs).rows = (if bonded = [] then [nonePaired] else bonded.map deviceRow) ++
      ((if finishesEmpty bs then [noneFound] else []) ++
        (bs.filterMap Broadcast.newDevice).map deviceRow) := by
  unfold shown rows
  rw [foldl_paired, foldl_new_empty rfl]
  congr 1
  cases bonded with
  | nil => rfl
  | cons d ds => rfl

/-- **Every row can be tapped.**  After all broadcasts, each row of either list returns the address
of the device it was made from, if and only if there are bonded devices and no discovery finishes
before a device was found that is not bonded. -/
theorem rows_tap_iff (bonded : List BluetoothDevice) (bs : List Broadcast) :
    (∀ row ∈ (shown bonded bs).rows, (shown bonded bs).Taps row) ↔
    bonded ≠ [] ∧ ∀ pre post, bs = pre ++ .discoveryFinished :: post →
      ∃ b ∈ pre, b.newDevice.isSome := by
  rw [← finishesEmpty_eq_false_iff, rows_shown]
  constructor
  · intro h
    refine ⟨fun hnil => ?_, ?_⟩
    · exact nonePaired_not_taps _ (h nonePaired (by simp [hnil]))
    · by_contra hempty
      exact noneFound_not_taps _ (h noneFound (by simp [hempty]))
  · rintro ⟨hbonded, hempty⟩ row hrow
    rw [if_neg hbonded, hempty] at hrow
    have hdevice : ∃ d, deviceRow d = row := by
      rcases List.mem_append.1 hrow with hrow | hrow
      · exact (List.mem_map.1 hrow).imp fun _ => And.right
      · exact (List.mem_map.1 hrow).imp fun _ => And.right
    obtain ⟨d, rfl⟩ := hdevice
    exact deviceRow_taps _ d

/-- A bonded device without a name. -/
def namelessDevice : BluetoothDevice := ⟨none, ofAscii "00:11:22:33:44:55", by decide⟩

/-- The broadcast of a discovery that found nothing leaves a row that throws, also with a bonded
device. -/
theorem no_devices_found_throws :
    noneFound ∈ (shown [namelessDevice] [.discoveryFinished]).rows ∧
      (shown [namelessDevice] [.discoveryFinished]).onItemClick noneFound = none :=
  ⟨by simp [rows_shown, finishesEmpty], rfl⟩

/-- Without bonded devices, the row that says so returns the end of its own text. -/
theorem no_devices_paired_returns : ∃ a, (shown [] []).onItemClick nonePaired = some a ∧
    nonePaired ∈ (shown [] []).rows ∧ a.result = some (ofAscii " have been paired") :=
  ⟨_, rfl, List.mem_cons_self, by decide⟩

end Controller
