import IraOS.Android.DeviceData
import IraOS.Android.Network
import IraOS.Android.Settings

/-!
# The capability classes

Every class of `core/android/capabilities` that is neither abstract nor empty: its descriptor, the
bridge it is given, and what its own code asks of that bridge. A class of the communication pack or
of the device pack hands its action and its arguments on as they are; battery, clipboard and
location always ask for the one thing they read.

What stands between a caller and the bridge is `execute_action` of the base class: the action has to
be among the descriptor's, or to be "default".

The classes are an enumeration (`AndroidClass`), and a class is a record of what its source says of
it (`BridgedCapability`), with the type of the state its bridge keeps as a field. So a statement
about all classes is one about every member of the enumeration, and goes through the fields.
Descriptors that differ only in a few fields are made by one function with those for arguments
(`readingDescriptor`, `writingDescriptor`, `probeDescriptor`), each class still giving its own
values.

Four modules of the source define a second class that is the first under another name; those are not
listed twice.
-/

set_option autoImplicit false

namespace IraOS.Direct

open Lib BaseAndroidCapability

/-! ## Classes over bridges -/

structure BridgedCapability where
  State : Type
  Data : Type
  descriptor : CapabilityDescriptor
  executeInternal : Env → PyValue → PyDict → Act State Exn Empty Data

def BridgedCapability.executeAction (c : BridgedCapability) (env : Env) (arguments : PyDict) :
    Act c.State Exn Empty (Reported c.Data) :=
  report c.descriptor (c.executeInternal env) arguments

def onSystem (descriptor : CapabilityDescriptor)
    (internal : SystemBridge MockSystemBridge.State → Internal MockSystemBridge.State) :
    BridgedCapability where
  State := MockSystemBridge.State
  Data := PyValue
  descriptor := descriptor
  executeInternal _ := internal MockSystemBridge.execute

def onNetwork (c : NetworkCapability.Spec) : BridgedCapability where
  State := MockNetworkBridge.State
  Data := NetworkCapability.Data
  descriptor := c.descriptor
  executeInternal _ := NetworkCapability.executeInternal c

/-- A class that hands its action and its arguments on to the bridge as they are. -/
def handsOn {σ : Type} (descriptor : CapabilityDescriptor)
    (execute : Env → PyValue → PyDict → BridgeAct σ Answer) : BridgedCapability where
  State := σ
  Data := Answer
  descriptor := descriptor
  executeInternal := execute

/-! ## Descriptors -/

def readingDescriptor (id name description : String) (actions : List String) :
    CapabilityDescriptor :=
  { id := id
    name := name
    description := description
    version := "1.0.0"
    supportedActions := actions
    isMutation := false
    supportsRollback := false
    auditRequired := false
    confirmationLevel := .NONE
    idempotent := true }

def writingDescriptor (id name description : String) (actions : List String)
    (supportsRollback : Bool) (confirmationLevel : ConfirmationLevel) : CapabilityDescriptor :=
  { id := id
    name := name
    description := description
    version := "1.0.0"
    supportedActions := actions
    isMutation := true
    supportsRollback := supportsRollback
    auditRequired := true
    confirmationLevel := confirmationLevel
    idempotent := false }

/-- What those of battery, clipboard and location have in common: they say nothing of mutations,
and the default is that there are none. -/
def probeDescriptor (id name description : String) : CapabilityDescriptor :=
  { id := id
    name := name
    description := description
    version := "1.0.0"
    supportedActions := ["read", "default"] }

/-! ## The device itself -/

def BatteryCapability : BridgedCapability :=
  onSystem (probeDescriptor "android.device.battery" "Battery Status"
    "Reads device battery level and charging status.")
    fun bridge _action arguments => bridge (.str "battery.read") arguments

def ClipboardCapability : BridgedCapability :=
  onSystem (probeDescriptor "android.device.clipboard.read" "Clipboard Read"
    "Reads the current text from the device clipboard.")
    fun bridge _action arguments => bridge (.str "clipboard.read") arguments

def LocationCapability : BridgedCapability :=
  handsOn (probeDescriptor "android.device.location.coarse" "Coarse Location"
    "Reads the current coarse device location.")
    fun _ _action arguments => MockLocationBridge.execute (.str "location.coarse") arguments

namespace VibrateCapability

def mutatingActions : List String := ["system.vibrate.start", "system.vibrate.cancel"]

def descriptor : CapabilityDescriptor :=
  writingDescriptor "android.device.vibrate" "Vibrate Control"
    "Controls device vibration motor. Triggers ephemeral actions." mutatingActions true .NONE

def notPositive : Exn :=
  ⟨.invalidArgumentError, lit "duration_ms must be a positive integer"⟩

/-- `int(duration)`, which has to be positive; an infinite `float` raises an `OverflowError` that
nothing here catches. -/
def durationOf (duration : PyValue) : Except Exn Int :=
  match duration with
  | .none => .error ⟨.invalidArgumentError, lit "duration_ms is required for start action"⟩
  | .bool _ => .error notPositive
  | duration =>
    match duration.toInt with
    | .ok value => if value ≤ 0 then .error notPositive else .ok value
    | .error exc =>
      if exc.cls = .valueError ∨ exc.cls = .typeError then .error notPositive else .error exc

def executeInternal (bridge : SystemBridge MockSystemBridge.State) :
    Internal MockSystemBridge.State := fun action arguments =>
  match action with
  | .str "system.vibrate.start" => do
    let duration ← Act.ofExcept (durationOf (argument arguments "duration_ms"))
    bridge action (Dict.empty.set "duration_ms" (.int duration))
  | .str "system.vibrate.cancel" => bridge action Dict.empty
  | _ => Act.throw (IraOS.unsupportedAction action)

end VibrateCapability

/-! ## Communication -/

def PhoneReadCapability : BridgedCapability :=
  handsOn (readingDescriptor "android.communication.phone.read" "Phone Status"
    "Reads current phone call state." ["telephony.phone.status"])
    fun _ => MockCallBridge.execute

def PhoneWriteCapability : BridgedCapability :=
  handsOn (writingDescriptor "android.communication.phone.write" "Phone Call Control"
    "Places, ends, or rejects phone calls. All actions are irreversible."
    ["telephony.phone.call", "telephony.phone.end", "telephony.phone.reject"] false .USER)
    fun _ => MockCallBridge.execute

def SmsReadCapability : BridgedCapability :=
  handsOn (readingDescriptor "android.communication.sms.read" "SMS Read"
    "Reads and searches the SMS inbox." ["telephony.sms.read", "telephony.sms.search"])
    MockSMSBridge.execute

def ContactsReadCapability : BridgedCapability :=
  handsOn (readingDescriptor "android.communication.contacts.read" "Contacts Read"
    "Reads and searches the contact book."
    ["telephony.contacts.read", "telephony.contacts.search"])
    MockContactsBridge.execute

def NotificationReadCapability : BridgedCapability :=
  handsOn (readingDescriptor "android.communication.notification.read" "Notification Read"
    "Reads active notifications." ["notification.read"])
    fun _ => MockNotificationBridge.execute

def NotificationReplyCapability : BridgedCapability :=
  handsOn (writingDescriptor "android.communication.notification.reply" "Notification Reply"
    "Replies to a notification. This action is irreversible." ["notification.reply"] false .USER)
    fun _ => MockNotificationBridge.execute

/-! ## Device and data -/

def CameraReadCapability : BridgedCapability :=
  handsOn (readingDescriptor "android.device.camera.read" "Camera Read" "Reads camera state."
    ["camera.status"]) MockCameraBridge.execute

def CameraWriteCapability : BridgedCapability :=
  handsOn (writingDescriptor "android.device.camera.write" "Camera Write"
    "Captures photos or videos." ["camera.capture"] false .USER) MockCameraBridge.execute

def MicrophoneReadCapability : BridgedCapability :=
  handsOn (readingDescriptor "android.device.microphone.read" "Microphone Read"
    "Reads microphone state." ["microphone.status"]) MockMicrophoneBridge.execute

def MicrophoneWriteCapability : BridgedCapability :=
  handsOn (writingDescriptor "android.device.microphone.write" "Microphone Write"
    "Controls microphone recording." ["microphone.record.start", "microphone.record.stop"] false
    .USER) MockMicrophoneBridge.execute

def FilesReadCapability : BridgedCapability :=
  handsOn (readingDescriptor "android.device.files.read" "Files Read" "Reads and lists files."
    ["files.read", "files.list"]) MockFileBridge.execute

def MediaReadCapability : BridgedCapability :=
  handsOn (readingDescriptor "android.device.media.read" "Media Read"
    "Reads media playback state." ["media.status"]) fun _ => MockMediaBridge.execute

def MediaWriteCapability : BridgedCapability :=
  handsOn (writingDescriptor "android.device.media.write" "Media Write" "Controls media playback."
    ["media.play", "media.pause", "media.stop"] false .NONE) fun _ => MockMediaBridge.execute

def GalleryReadCapability : BridgedCapability :=
  handsOn (readingDescriptor "android.device.gallery.read" "Gallery Read" "Reads gallery assets."
    ["gallery.list"]) MockGalleryBridge.execute

def GalleryWriteCapability : BridgedCapability :=
  handsOn (writingDescriptor "android.device.gallery.write" "Gallery Write"
    "Adds or deletes gallery assets." ["gallery.add", "gallery.delete"] true .USER)
    MockGalleryBridge.execute

def DownloadsReadCapability : BridgedCapability :=
  handsOn (readingDescriptor "android.device.downloads.read" "Downloads Read"
    "Reads download status and queue." ["downloads.list", "downloads.status"])
    MockDownloadBridge.execute

def DownloadsWriteCapability : BridgedCapability :=
  handsOn (writingDescriptor "android.device.downloads.write" "Downloads Write"
    "Manages downloads."
    ["downloads.start", "downloads.pause", "downloads.resume", "downloads.cancel",
      "downloads.delete"] true .USER)
    MockDownloadBridge.execute

def StorageReadCapability : BridgedCapability :=
  handsOn (readingDescriptor "android.device.storage.read" "Storage Read"
    "Reads storage capacity info." ["storage.info"]) fun _ => MockStorageBridge.execute

def StorageWriteCapability : BridgedCapability :=
  handsOn (writingDescriptor "android.device.storage.write" "Storage Write"
    "Destructive storage operations." ["storage.format", "storage.clear_cache"] false .USER)
    fun _ => MockStorageBridge.execute

/-! ## All of them -/

/-- The classes. `CallCapability`, `SmsCapability`, `ContactsCapability` and
`NotificationCapability` are other names of those that read. -/
inductive AndroidClass where
  | brightness | flashlight | volume | vibrate | rotation | screenTimeout | doNotDisturb
  | wifi | bluetooth | mobileData | hotspot | airplaneMode
  | phoneRead | phoneWrite | smsRead | smsWrite | contactsRead | contactsWrite
  | notificationRead | notificationWrite | notificationReply
  | cameraRead | cameraWrite | microphoneRead | microphoneWrite | filesRead | filesWrite
  | mediaRead | mediaWrite | galleryRead | galleryWrite | downloadsRead | downloadsWrite
  | storageRead | storageWrite
  | battery | clipboard | location
  deriving DecidableEq, Repr

def AndroidClass.capability : AndroidClass → BridgedCapability
  | .brightness =>
    onSystem IraOS.BrightnessCapability.descriptor BrightnessCapability.executeInternal
  | .flashlight =>
    onSystem IraOS.FlashlightCapability.descriptor FlashlightCapability.executeInternal
  | .volume => onSystem IraOS.VolumeCapability.descriptor VolumeCapability.executeInternal
  | .vibrate => onSystem VibrateCapability.descriptor VibrateCapability.executeInternal
  | .rotation => onSystem IraOS.RotationCapability.descriptor RotationCapability.executeInternal
  | .screenTimeout =>
    onSystem IraOS.ScreenTimeoutCapability.descriptor ScreenTimeoutCapability.executeInternal
  | .doNotDisturb =>
    onSystem IraOS.DoNotDisturbCapability.descriptor DoNotDisturbCapability.executeInternal
  | .wifi => onNetwork NetworkCapability.wifi
  | .bluetooth => onNetwork NetworkCapability.bluetooth
  | .mobileData => onNetwork NetworkCapability.mobileData
  | .hotspot => onNetwork NetworkCapability.hotspot
  | .airplaneMode => onNetwork NetworkCapability.airplaneMode
  | .phoneRead => PhoneReadCapability
  | .phoneWrite => PhoneWriteCapability
  | .smsRead => SmsReadCapability
  | .smsWrite => handsOn SmsWriteCapability.descriptor MockSMSBridge.execute
  | .contactsRead => ContactsReadCapability
  | .contactsWrite => handsOn ContactsWriteCapability.descriptor MockContactsBridge.execute
  | .notificationRead => NotificationReadCapability
  | .notificationWrite =>
    handsOn NotificationWriteCapability.descriptor fun _ => MockNotificationBridge.execute
  | .notificationReply => NotificationReplyCapability
  | .cameraRead => CameraReadCapability
  | .cameraWrite => CameraWriteCapability
  | .microphoneRead => MicrophoneReadCapability
  | .microphoneWrite => MicrophoneWriteCapability
  | .filesRead => FilesReadCapability
  | .filesWrite => handsOn FilesWriteCapability.descriptor MockFileBridge.execute
  | .mediaRead => MediaReadCapability
  | .mediaWrite => MediaWriteCapability
  | .galleryRead => GalleryReadCapability
  | .galleryWrite => GalleryWriteCapability
  | .downloadsRead => DownloadsReadCapability
  | .downloadsWrite => DownloadsWriteCapability
  | .storageRead => StorageReadCapability
  | .storageWrite => StorageWriteCapability
  | .battery => BatteryCapability
  | .clipboard => ClipboardCapability
  | .location => LocationCapability

end IraOS.Direct
