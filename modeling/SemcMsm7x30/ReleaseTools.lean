import SemcMsm7x30.WalkedRemoval

namespace SemcMsm7x30.ReleaseTools

-- The generator of the updater script, its commands in the order they are run.
structure Edify where
  script : List String

structure Info where
  script : Edify

-- `needle in text` on Python strings.
def isIn (needle text : String) : Bool := decide (needle.toList <:+: text.toList)

def installsBoot (cmd : String) : Bool := isIn "package_extract_file(\"boot.img\"" cmd

-- The `for` statement keeps a position in the list that the body edits, and
-- `remove` takes out the first command that is equal.
def FullOTA_InstallEnd (info : Info) : Option Info := do
  let edify := info.script
  let script ← WalkedRemoval.walk installsBoot edify.script.length 0 edify.script
  some {info with script := {edify with script := script}}

def DirectInstallsRemoved (info : Info) : Prop :=
  ∃ after, FullOTA_InstallEnd info = some after ∧
    (∀ cmd ∈ after.script.script,¬installsBoot cmd) ∧
    after.script.script = info.script.script.filter fun cmd => !installsBoot cmd

-- What the edit keeps at any rate: it ends, and no other command is lost or moved.
theorem other_commands_kept (info : Info) :
    ∃ after, FullOTA_InstallEnd info = some after ∧
      after.script.script.filter (fun cmd => !installsBoot cmd) =
        info.script.script.filter fun cmd => !installsBoot cmd := by
  obtain ⟨script,ran,kept,-⟩ :=
    WalkedRemoval.walk_from installsBoot info.script.script.length 0 info.script.script
      (by omega)
  exact ⟨_,by rw [FullOTA_InstallEnd,ran]; rfl,kept⟩

theorem direct_installs_removed_iff (info : Info) :
    DirectInstallsRemoved info ↔
      info.script.script.IsChain fun cmd next => ¬(installsBoot cmd ∧ installsBoot next) := by
  obtain ⟨script,ran,filters⟩ := WalkedRemoval.walk_filters_iff installsBoot info.script.script
  rw [←filters]
  constructor
  · intro removed
    obtain ⟨after,ended,-,filtered⟩ := removed
    rw [FullOTA_InstallEnd,ran] at ended
    cases Option.some.inj ended
    exact filtered
  · intro filtered
    refine ⟨{info with script := {info.script with script := script}},?_,?_,filtered⟩
    · rw [FullOTA_InstallEnd,ran]
      rfl
    · intro cmd member
      rw [show script = _ from filtered] at member
      simpa using List.of_mem_filter member

-- The second of two neighbouring installs stays in the script.
def bootTwice : Info :=
  ⟨⟨["write_raw_image(package_extract_file(\"boot.img\"), \"boot\");",
    "write_raw_image(package_extract_file(\"boot.img\"), \"/dev/block/mmcblk0p3\");"]⟩⟩

theorem second_install_kept : ¬DirectInstallsRemoved bootTwice := by
  intro removed
  obtain ⟨after,ended,-,filtered⟩ := removed
  have left : (FullOTA_InstallEnd bootTwice).map (·.script.script.length) = some 1 := by
    decide +kernel
  have expected : (bootTwice.script.script.filter fun cmd => !installsBoot cmd).length = 0 := by
    decide +kernel
  rw [ended,Option.map_some,filtered,expected] at left
  cases left

end SemcMsm7x30.ReleaseTools
