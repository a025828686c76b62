import Mathlib
import SemcMsm7x30.LockedCalls

namespace SemcMsm7x30.Lights
open PartialMachine LockedCalls

inductive Led where
  | red | green | blue
  deriving DecidableEq, Repr

def leds : List Led := [.red,.green,.blue]

inductive File where
  | lcdBacklight
  | buttonBacklight
  | keyboardBacklight
  | brightness (led : Led)
  | trigger (led : Led)
  | delay_on (led : Led)
  | delay_off (led : Led)
  deriving DecidableEq, Repr

structure light_state_t where
  color : UInt32
  flashMode : Int
  flashOnMS : Int
  flashOffMS : Int
  deriving DecidableEq, Repr

def LIGHT_FLASH_NONE : Int := 0
def LIGHT_FLASH_TIMED : Int := 1
def LIGHT_FLASH_HARDWARE : Int := 2
def LCD_BRIGHTNESS_MIN : Int := 5

-- HAVE_BUTTON_BACKLIGHT and HAVE_KEYBOARD_BACKLIGHT, the files that can be opened,
-- and what (int)(pow(brightness/255.0,2.2)*255.0) is.
structure Device where
  button : Bool
  keyboard : Bool
  present : File → Bool
  corrected : Nat → Int

structure Shared where
  g_notification : light_state_t
  g_battery : light_state_t
  files : File → String

def unlit : light_state_t := ⟨0,0,0,0⟩

inductive Op where
  | storeNotification (state : light_state_t)
  | storeBattery (state : light_state_t)
  | steadyNotification
  | steadyBattery
  | write (file : File) (text : String)

inductive Call where
  | set_light_backlight (state : light_state_t)
  | set_light_buttons (state : light_state_t)
  | set_light_keyboard (state : light_state_t)
  | set_light_battery (state : light_state_t)
  | set_light_notifications (state : light_state_t)
  deriving DecidableEq

section Functions

def decimal (value : Int) : String := toString value ++ "\n"

def write_int (path : File) (value : Int) : Op := .write path (decimal value)

def write_string (path : File) (value : String) : Op := .write path (value ++ "\n")

def is_lit (state : light_state_t) : Bool := state.color &&& 0x00ffffff ≠ 0

def red (color : Nat) : Nat := color/2^16%2^8
def green (color : Nat) : Nat := color/2^8%2^8
def blue (color : Nat) : Nat := color%2^8

def rgb_to_brightness (state : light_state_t) : Nat :=
  let color := (state.color &&& 0x00ffffff).toNat
  (77*red color+150*green color+29*blue color)/2^8

def brightness_apply_gamma (corrected : Nat → Int) (brightness : Nat) : Int :=
  if corrected brightness < LCD_BRIGHTNESS_MIN then LCD_BRIGHTNESS_MIN else corrected brightness

def screen (corrected : Nat → Int) (state : light_state_t) : Int :=
  let brightness := rgb_to_brightness state
  if 0 < brightness then brightness_apply_gamma corrected brightness else brightness

-- The flashMode the switch sees: "delayOn == 1" has stored NONE before it.
def mode (state : light_state_t) : Int :=
  if state.flashOnMS = 1 then LIGHT_FLASH_NONE else state.flashMode

def colour (color : UInt32) : Led → Nat
  | .red => red (color &&& 0xffffff).toNat
  | .green => green (color &&& 0xffffff).toNat
  | .blue => blue (color &&& 0xffffff).toNat

def flashing (state : light_state_t) : List Op :=
  if mode state = LIGHT_FLASH_TIMED ∨ mode state = LIGHT_FLASH_HARDWARE then
    leds.flatMap fun led =>
      [write_string (.trigger led) "timer",write_int (.delay_on led) state.flashOnMS,
        write_int (.delay_off led) state.flashOffMS]
  else if mode state = LIGHT_FLASH_NONE then leds.map fun led => write_string (.trigger led) "none"
  else []

-- `steady` is the assignment to state->flashMode.
def set_shared_light_locked (steady : Op) (state : light_state_t) : List Op :=
  (if state.flashOnMS = 1 then [steady] else []) ++ flashing state ++
    leds.map fun led => write_int (.brightness led) (colour state.color led)

def handle_shared_battery_locked (g_notification g_battery : light_state_t) : List Op :=
  if is_lit g_notification then set_shared_light_locked .steadyNotification g_notification
  else set_shared_light_locked .steadyBattery g_battery

-- Without its #define a function does nothing at all.
def plan (device : Device) (call : Call) (s : Shared) : List Op :=
  match call with
  | .set_light_backlight state => [write_int .lcdBacklight (screen device.corrected state)]
  | .set_light_buttons state =>
    if device.button then [write_int .buttonBacklight (rgb_to_brightness state)] else []
  | .set_light_keyboard state =>
    if device.keyboard then [write_int .keyboardBacklight (rgb_to_brightness state)] else []
  | .set_light_battery state =>
    .storeBattery state::handle_shared_battery_locked s.g_notification state
  | .set_light_notifications state =>
    .storeNotification state::handle_shared_battery_locked state s.g_battery

def apply (device : Device) (s : Shared) : Op → Shared
  | .storeNotification state => {s with g_notification := state}
  | .storeBattery state => {s with g_battery := state}
  | .steadyNotification =>
    {s with g_notification := {s.g_notification with flashMode := LIGHT_FLASH_NONE}}
  | .steadyBattery => {s with g_battery := {s.g_battery with flashMode := LIGHT_FLASH_NONE}}
  | .write file text =>
    if device.present file then {s with files := Function.update s.files file text} else s

def program (device : Device) : Program Call Op Shared := ⟨plan device,apply device⟩

end Functions

theorem screen_bounds (corrected : Nat → Int) (state : light_state_t) :
    (rgb_to_brightness state = 0 ∧ screen corrected state = 0) ∨
      LCD_BRIGHTNESS_MIN ≤ screen corrected state := by
  unfold screen
  simp only
  split
  · refine .inr ?_
    unfold brightness_apply_gamma
    split
    · exact le_refl _
    · exact le_of_not_gt (by assumption)
  · rename_i dark
    have zero : rgb_to_brightness state = 0 := Nat.eq_zero_of_not_pos dark
    exact .inl ⟨zero,by rw [zero]; rfl⟩

theorem rgb_to_brightness_le (state : light_state_t) : rgb_to_brightness state ≤ 255 := by
  unfold rgb_to_brightness red green blue
  simp only
  omega

section Writes
variable {device : Device}

def Op.target : Op → Option File
  | .write file _ => some file
  | _ => none

theorem files_untouched {ops : List Op} {s : Shared} {file : File}
    (other : file ∉ ops.filterMap Op.target) : (ops.foldl (apply device) s).files file = s.files file := by
  induction ops generalizing s with
  | nil => rfl
  | cons op rest ih =>
    rw [List.foldl_cons]
    cases op with
    | write path text =>
      have apart : file ≠ path ∧ file ∉ rest.filterMap Op.target := by
        simpa [Op.target] using other
      rw [ih apart.2,apply]
      split
      · exact Function.update_of_ne apart.1 ..
      · rfl
    | _ => exact ih other

theorem files_written {ops : List Op} {s : Shared} {file : File} {text : String}
    (once : (ops.filterMap Op.target).Nodup) (member : Op.write file text ∈ ops)
    (present : device.present file = true) : (ops.foldl (apply device) s).files file = text := by
  induction ops generalizing s with
  | nil => cases member
  | cons op rest ih =>
    rw [List.foldl_cons]
    rcases List.mem_cons.mp member with rfl | later
    · have others : file ∉ rest.filterMap Op.target := (List.nodup_cons.mp once).1
      rw [files_untouched others,apply,if_pos present]
      exact Function.update_self ..
    · refine ih ?_ later
      cases op with
      | write path other => exact (List.nodup_cons.mp once).2
      | _ => exact once

theorem shared_once (steady : Op) (untargeted : steady.target = none) (state : light_state_t) :
    ((set_shared_light_locked steady state).filterMap Op.target).Nodup := by
  have front : (if state.flashOnMS = 1 then [steady] else []).filterMap Op.target = [] := by
    split
    · simp [untargeted]
    · rfl
  rw [set_shared_light_locked,List.filterMap_append,List.filterMap_append,front,List.nil_append]
  unfold flashing
  split
  · show ([.trigger .red,.delay_on .red,.delay_off .red,.trigger .green,.delay_on .green,
      .delay_off .green,.trigger .blue,.delay_on .blue,.delay_off .blue,.brightness .red,
      .brightness .green,.brightness .blue] : List File).Nodup
    decide
  · split
    · show ([.trigger .red,.trigger .green,.trigger .blue,.brightness .red,.brightness .green,
        .brightness .blue] : List File).Nodup
      decide
    · show ([.brightness .red,.brightness .green,.brightness .blue] : List File).Nodup
      decide

end Writes

section Display
variable {device : Device}

theorem every_led (led : Led) : led ∈ leds := by
  cases led <;> decide

-- The LEDs show the colour of a light and flash as it says.
structure Shows (device : Device) (files : File → String) (state : light_state_t) : Prop where
  colour : ∀ led, device.present (.brightness led) →
    files (.brightness led) = decimal (colour state.color led)
  flashes : mode state = LIGHT_FLASH_TIMED ∨ mode state = LIGHT_FLASH_HARDWARE → ∀ led,
    (device.present (.trigger led) → files (.trigger led) = "timer\n") ∧
      (device.present (.delay_on led) → files (.delay_on led) = decimal state.flashOnMS) ∧
      (device.present (.delay_off led) → files (.delay_off led) = decimal state.flashOffMS)
  steady : mode state = LIGHT_FLASH_NONE → ∀ led, device.present (.trigger led) →
    files (.trigger led) = "none\n"

structure Alike (one two : light_state_t) : Prop where
  color : one.color = two.color
  mode : mode one = mode two
  flashOnMS : one.flashOnMS = two.flashOnMS
  flashOffMS : one.flashOffMS = two.flashOffMS

theorem alike_refl (state : light_state_t) : Alike state state := ⟨rfl,rfl,rfl,rfl⟩

theorem Alike.trans {one two three : light_state_t} (first : Alike one two) (second : Alike two three) :
    Alike one three :=
  ⟨first.color.trans second.color,first.mode.trans second.mode,
    first.flashOnMS.trans second.flashOnMS,first.flashOffMS.trans second.flashOffMS⟩

theorem Alike.lit {one two : light_state_t} (alike : Alike one two) : is_lit one = is_lit two := by
  rw [is_lit,alike.color]
  rfl

theorem Shows.alike {files : File → String} {one two : light_state_t}
    (shows : Shows device files one) (alike : Alike one two) : Shows device files two := by
  refine ⟨?_,?_,?_⟩
  · rw [←alike.color]
    exact shows.colour
  · rw [←alike.mode,←alike.flashOnMS,←alike.flashOffMS]
    exact shows.flashes
  · rw [←alike.mode]
    exact shows.steady

theorem shared_shows (steady : Op) (untargeted : steady.target = none) (state : light_state_t)
    (s : Shared) :
    Shows device ((set_shared_light_locked steady state).foldl (apply device) s).files state := by
  have once := shared_once steady untargeted state
  have flashed : ∀ op ∈ flashing state,op ∈ set_shared_light_locked steady state := by
    intro op member
    exact List.mem_append_left _ (List.mem_append_right _ member)
  refine ⟨?_,?_,?_⟩
  · intro led present
    refine files_written once ?_ present
    exact List.mem_append_right _ (List.mem_map.mpr ⟨led,every_led led,rfl⟩)
  · intro timed led
    have each : ∀ op ∈ [write_string (.trigger led) "timer",write_int (.delay_on led) state.flashOnMS,
        write_int (.delay_off led) state.flashOffMS],op ∈ set_shared_light_locked steady state := by
      intro op member
      refine flashed op ?_
      rw [flashing,if_pos timed]
      exact List.mem_flatMap.mpr ⟨led,every_led led,member⟩
    refine ⟨?_,?_,?_⟩
    · exact files_written once (each _ List.mem_cons_self)
    · exact files_written once (each _ (List.mem_cons_of_mem _ List.mem_cons_self))
    · exact files_written once
        (each _ (List.mem_cons_of_mem _ (List.mem_cons_of_mem _ List.mem_cons_self)))
  · intro none led
    refine files_written once (flashed _ ?_)
    have untimed : ¬(mode state = LIGHT_FLASH_TIMED ∨ mode state = LIGHT_FLASH_HARDWARE) := by
      rw [none]
      decide
    rw [flashing,if_neg untimed,if_pos none]
    exact List.mem_map.mpr ⟨led,every_led led,rfl⟩

theorem writes_keep {ops : List Op} (writes : ∀ op ∈ ops,op.target.isSome) (s : Shared) :
    (ops.foldl (apply device) s).g_notification = s.g_notification ∧
      (ops.foldl (apply device) s).g_battery = s.g_battery := by
  induction ops generalizing s with
  | nil => exact ⟨rfl,rfl⟩
  | cons op rest ih =>
    have later := ih (fun other member => writes other (List.mem_cons_of_mem op member))
      (apply device s op)
    have first := writes op List.mem_cons_self
    rw [List.foldl_cons,later.1,later.2]
    cases op with
    | write file text =>
      rw [apply]
      split <;> exact ⟨rfl,rfl⟩
    | _ => cases first

theorem flashing_writes (state : light_state_t) :
    ∀ op ∈ flashing state ++ leds.map (fun led => write_int (.brightness led) (colour state.color led)),
      op.target.isSome := by
  intro op member
  rcases List.mem_append.mp member with flash | bright
  · unfold flashing at flash
    split at flash
    · obtain ⟨led,_,member⟩ := List.mem_flatMap.mp flash
      simp only [List.mem_cons,List.not_mem_nil,or_false] at member
      rcases member with rfl | rfl | rfl <;> rfl
    · split at flash
      · obtain ⟨led,_,rfl⟩ := List.mem_map.mp flash
        rfl
      · cases flash
  · obtain ⟨led,_,rfl⟩ := List.mem_map.mp bright
    rfl

theorem steady_alike {state : light_state_t} (once : state.flashOnMS = 1) :
    Alike {state with flashMode := LIGHT_FLASH_NONE} state := by
  refine ⟨rfl,?_,rfl,rfl⟩
  simp [mode,once]

theorem handle_alike (s : Shared) :
    Alike ((handle_shared_battery_locked s.g_notification s.g_battery).foldl
        (apply device) s).g_notification s.g_notification ∧
      Alike ((handle_shared_battery_locked s.g_notification s.g_battery).foldl
        (apply device) s).g_battery s.g_battery := by
  unfold handle_shared_battery_locked set_shared_light_locked
  split
  all_goals
    rw [List.append_assoc,List.foldl_append]
    split
    · rename_i once
      obtain ⟨notification,battery⟩ := @writes_keep device _ (flashing_writes _)
        (apply device s _)
      rw [List.foldl_cons,List.foldl_nil,notification,battery]
      first
      | exact ⟨steady_alike once,alike_refl _⟩
      | exact ⟨alike_refl _,steady_alike once⟩
    · obtain ⟨notification,battery⟩ := @writes_keep device _ (flashing_writes _) s
      rw [List.foldl_nil,notification,battery]
      exact ⟨alike_refl _,alike_refl _⟩

def shown (g_notification g_battery : light_state_t) : light_state_t :=
  if is_lit g_notification then g_notification else g_battery

theorem handle_shows (s : Shared) :
    Shows device ((handle_shared_battery_locked s.g_notification s.g_battery).foldl
      (apply device) s).files (shown s.g_notification s.g_battery) := by
  unfold handle_shared_battery_locked shown
  split
  · exact shared_shows .steadyNotification rfl _ s
  · exact shared_shows .steadyBattery rfl _ s

end Display

section Spec

def noteBattery (last : light_state_t) : Call → light_state_t
  | .set_light_battery state => state
  | _ => last

def noteNotification (last : light_state_t) : Call → light_state_t
  | .set_light_notifications state => state
  | _ => last

def noteBacklight (last : Option light_state_t) : Call → Option light_state_t
  | .set_light_backlight state => some state
  | _ => last

def Call.onLeds : Call → Bool
  | .set_light_battery _ | .set_light_notifications _ => true
  | _ => false

structure Follows (device : Device) (served : List Call) (s : Shared) : Prop where
  notification : Alike s.g_notification (served.foldl noteNotification unlit)
  battery : Alike s.g_battery (served.foldl noteBattery unlit)
  shows : served.any Call.onLeds → Shows device s.files
    (shown (served.foldl noteNotification unlit) (served.foldl noteBattery unlit))
  lcd : ∀ state,served.foldl noteBacklight none = some state → device.present .lcdBacklight →
    s.files .lcdBacklight = decimal (screen device.corrected state)

end Spec

section Served
variable {device : Device}

theorem Shows.same {files later : File → String} {state : light_state_t}
    (shows : Shows device files state)
    (kept : ∀ file,file ≠ .lcdBacklight → file ≠ .buttonBacklight → file ≠ .keyboardBacklight →
      later file = files file) : Shows device later state := by
  refine ⟨?_,?_,?_⟩
  · intro led present
    rw [kept _ (by simp) (by simp) (by simp)]
    exact shows.colour led present
  · intro timed led
    rw [kept (.trigger led) (by simp) (by simp) (by simp),
      kept (.delay_on led) (by simp) (by simp) (by simp),
      kept (.delay_off led) (by simp) (by simp) (by simp)]
    exact shows.flashes timed led
  · intro none led present
    rw [kept _ (by simp) (by simp) (by simp)]
    exact shows.steady none led present

theorem handle_elsewhere (g_notification g_battery : light_state_t) :
    File.lcdBacklight ∉ (handle_shared_battery_locked g_notification g_battery).filterMap
      Op.target := by
  have shared : ∀ steady state,steady.target = none →
      File.lcdBacklight ∉ (set_shared_light_locked steady state).filterMap Op.target := by
    intro steady state untargeted
    simp only [List.mem_filterMap,not_exists,not_and]
    intro op member
    rw [set_shared_light_locked,List.append_assoc] at member
    rcases List.mem_append.mp member with first | writes
    · split at first
      · rw [List.mem_singleton.mp first,untargeted]
        simp
      · cases first
    · rcases List.mem_append.mp writes with flash | bright
      · unfold flashing at flash
        split at flash
        · obtain ⟨led,_,member⟩ := List.mem_flatMap.mp flash
          simp only [List.mem_cons,List.not_mem_nil,or_false] at member
          rcases member with rfl | rfl | rfl <;> simp [Op.target,write_string,write_int]
        · split at flash
          · obtain ⟨led,_,rfl⟩ := List.mem_map.mp flash
            simp [Op.target,write_string]
          · cases flash
      · obtain ⟨led,_,rfl⟩ := List.mem_map.mp bright
        simp [Op.target,write_int]
  unfold handle_shared_battery_locked
  split
  · exact shared _ _ rfl
  · exact shared _ _ rfl

theorem foldl_snoc {α : Type} (note : α → Call → α) (start : α) (served : List Call) (call : Call) :
    (served ++ [call]).foldl note start = note (served.foldl note start) call := by
  rw [List.foldl_append]
  rfl

theorem shown_alike {notification notification' battery battery' : light_state_t}
    (one : Alike notification notification') (two : Alike battery battery') :
    Alike (shown notification battery) (shown notification' battery') := by
  unfold shown
  rw [one.lit]
  split
  · exact one
  · exact two

theorem shared_follows {served : List Call} {s : Shared} {call : Call} (stored : Shared)
    (kept : Follows device served s) (leds : call.onLeds = true)
    (work : atomic (program device) s call =
      (handle_shared_battery_locked stored.g_notification stored.g_battery).foldl (apply device) stored)
    (files : stored.files = s.files)
    (notification : Alike stored.g_notification ((served ++ [call]).foldl noteNotification unlit))
    (battery : Alike stored.g_battery ((served ++ [call]).foldl noteBattery unlit)) :
    Follows device (served ++ [call]) (atomic (program device) s call) := by
  obtain ⟨sameNotification,sameBattery⟩ := @handle_alike device stored
  rw [work]
  refine ⟨sameNotification.trans notification,sameBattery.trans battery,?_,?_⟩
  · exact fun _ => (handle_shows stored).alike (shown_alike notification battery)
  · intro state asked present
    rw [foldl_snoc] at asked
    rw [files_untouched (handle_elsewhere _ _),files]
    refine kept.lcd state ?_ present
    cases call with
    | set_light_battery | set_light_notifications => exact asked
    | _ => cases leds

def Call.file : Call → Option File
  | .set_light_backlight _ => some .lcdBacklight
  | .set_light_buttons _ => some .buttonBacklight
  | .set_light_keyboard _ => some .keyboardBacklight
  | _ => none

theorem single_follows {served : List Call} {s : Shared} {call : Call} {file : File} {ops : List Op}
    (kept : Follows device served s) (own : call.file = some file)
    (planned : plan device call s = ops) (writes : ∀ op ∈ ops,op.target = some file)
    (lcd : ∀ state,(served ++ [call]).foldl noteBacklight none = some state →
      device.present .lcdBacklight →
      (ops.foldl (apply device) s).files .lcdBacklight = decimal (screen device.corrected state)) :
    Follows device (served ++ [call]) (atomic (program device) s call) := by
  have work : atomic (program device) s call = ops.foldl (apply device) s := by
    rw [←planned]
    rfl
  have targeted : ∀ op ∈ ops,op.target.isSome := by
    intro op member
    rw [writes op member]
    rfl
  have others : ∀ other,other ≠ file → other ∉ ops.filterMap Op.target := by
    intro other differs found
    obtain ⟨op,member,target⟩ := List.mem_filterMap.mp found
    exact differs (Option.some.inj (target.symm.trans (writes op member)))
  have away : call.onLeds = false := by
    cases call <;> first | rfl | cases own
  obtain ⟨notification,battery⟩ := @writes_keep device ops targeted s
  rw [work]
  refine ⟨?_,?_,?_,lcd⟩
  · rw [notification,foldl_snoc]
    cases call with
    | set_light_notifications => cases own
    | _ => exact kept.notification
  · rw [battery,foldl_snoc]
    cases call with
    | set_light_battery => cases own
    | _ => exact kept.battery
  · intro some
    rw [List.any_append,List.any_cons,List.any_nil,away,Bool.or_false,Bool.or_false] at some
    have before : Shows device s.files
        (shown ((served ++ [call]).foldl noteNotification unlit)
          ((served ++ [call]).foldl noteBattery unlit)) := by
      rw [foldl_snoc,foldl_snoc]
      cases call with
      | set_light_battery | set_light_notifications => cases own
      | _ => exact kept.shows some
    refine before.same ?_
    intro other one two three
    refine files_untouched (others other ?_)
    cases call <;> cases own <;> assumption

theorem optional_follows {served : List Call} {s : Shared} {call : Call} {file : File}
    (kept : Follows device served s) (own : call.file = some file) (built : Bool) (value : Int)
    (planned : plan device call s = if built then [write_int file value] else [])
    (lcd : file ≠ .lcdBacklight) (asks : ∀ last,noteBacklight last call = last) :
    Follows device (served ++ [call]) (atomic (program device) s call) := by
  refine single_follows kept own planned ?_ ?_
  · intro op member
    split at member
    · rw [List.mem_singleton.mp member]
      rfl
    · cases member
  · intro state asked present
    rw [foldl_snoc,asks] at asked
    rw [files_untouched ?_]
    · exact kept.lcd state asked present
    · split
      · simpa [Op.target,write_int] using lcd.symm
      · simp

theorem atomic_follows {served : List Call} {s : Shared} (kept : Follows device served s)
    (call : Call) : Follows device (served ++ [call]) (atomic (program device) s call) := by
  cases call with
  | set_light_battery state =>
    refine shared_follows {s with g_battery := state} kept rfl rfl rfl ?_ ?_
    · rw [foldl_snoc]
      exact kept.notification
    · rw [foldl_snoc]
      exact alike_refl state
  | set_light_notifications state =>
    refine shared_follows {s with g_notification := state} kept rfl rfl rfl ?_ ?_
    · rw [foldl_snoc]
      exact alike_refl state
    · rw [foldl_snoc]
      exact kept.battery
  | set_light_backlight state =>
    refine single_follows kept rfl rfl ?_ ?_
    · intro op member
      rw [List.mem_singleton.mp member]
      rfl
    · intro other asked present
      rw [foldl_snoc] at asked
      cases asked
      exact files_written (List.nodup_singleton _) (List.mem_singleton_self _) present
  | set_light_buttons state =>
    exact optional_follows kept rfl device.button (rgb_to_brightness state) rfl (by decide)
      fun _ => rfl
  | set_light_keyboard state =>
    exact optional_follows kept rfl device.keyboard (rgb_to_brightness state) rfl (by decide)
      fun _ => rfl

theorem serial_follows (files : File → String) (served : List Call) :
    Follows device served (serial (program device) ⟨unlit,unlit,files⟩ served) := by
  induction served using List.reverseRecOn with
  | nil =>
    refine ⟨alike_refl unlit,alike_refl unlit,?_,?_⟩
    · intro none
      cases none
    · intro state none
      cases none
  | append_singleton served call ih =>
    rw [serial_snoc]
    exact atomic_follows ih call

end Served

theorem lights_follow {Thread : Type} [DecidableEq Thread] (device : Device) (files : File → String)
    {actions : List (Action Thread Call)} {s : State Thread Call Op Shared}
    (ran : run (step (program device)) (initial Thread Call Op ⟨unlit,unlit,files⟩) actions = some s)
    (free : s.owner = none) : Follows device s.served s.shared := by
  rw [run_serial ran free]
  exact serial_follows files s.served

def amber : light_state_t := ⟨0xffff8000,LIGHT_FLASH_NONE,0,0⟩
def greenBlink : light_state_t := ⟨0xff00ff00,LIGHT_FLASH_TIMED,500,2000⟩

def everything : Device := ⟨false,false,fun _ => true,fun brightness => brightness⟩

def works (t : Bool) (turns : Nat) : List (Action Bool Call) := List.replicate turns (.work t)

def contended : List (Action Bool Call) :=
  .call true (.set_light_notifications greenBlink)::.call false (.set_light_battery amber)::
    .lock true::(works true 13).append (.unlock true::.lock false::(works false 13).append
      [.unlock false])

theorem lights_follow_contended : ∃ s : State Bool Call Op Shared,
    run (step (program everything)) (initial Bool Call Op ⟨unlit,unlit,fun _ => ""⟩) contended = some s ∧
      s.owner = none ∧ Follows everything s.served s.shared ∧
      s.served = [.set_light_notifications greenBlink,.set_light_battery amber] ∧
      s.shared.files (.brightness .green) = "255\n" ∧ s.shared.files (.trigger .red) = "timer\n" := by
  have ran : (run (step (program everything))
      (initial Bool Call Op ⟨unlit,unlit,fun _ => ""⟩) contended).map (fun s =>
        (s.owner,s.served,s.shared.files (.brightness .green),s.shared.files (.trigger .red))) =
      some (none,[.set_light_notifications greenBlink,.set_light_battery amber],"255\n","timer\n") := by
    decide +kernel
  obtain ⟨s,reached,seen⟩ := Option.map_eq_some_iff.mp ran
  obtain ⟨free,served,green,red⟩ : s.owner = none ∧ _ ∧ _ ∧ _ := by simpa using seen
  exact ⟨s,reached,free,lights_follow everything (fun _ => "") reached free,served,green,red⟩

end SemcMsm7x30.Lights
