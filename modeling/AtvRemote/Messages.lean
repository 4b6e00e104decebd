import AtvRemote.Errors

namespace AtvRemote.Messages

abbrev Bytes := List UInt8

structure RemoteDeviceInfo where
  model : String := ""
  vendor : String := ""
  unknown1 : Int32 := 0
  unknown2 : String := ""
  packageName : String := ""
  appVersion : String := ""
  deriving DecidableEq, Repr

structure RemoteConfigure where
  code1 : Int32 := 0
  deviceInfo : Option RemoteDeviceInfo := none
  deriving DecidableEq, Repr

structure RemoteSetActive where
  active : Int32 := 0
  deriving DecidableEq, Repr

/-- The message nested in an error is never looked at and stays encoded. -/
structure RemoteError where
  value : Bool := false
  message : Option Bytes := none
  deriving DecidableEq, Repr

structure RemotePingRequest where
  val1 : Int32 := 0
  val2 : Int32 := 0
  deriving DecidableEq, Repr

structure RemotePingResponse where
  val1 : Int32 := 0
  deriving DecidableEq, Repr

structure RemoteKeyInject where
  keyCode : Int32 := 0
  direction : Int32 := 0
  deriving DecidableEq, Repr

structure RemoteStart where
  started : Bool := false
  deriving DecidableEq, Repr

structure RemoteAppLinkLaunchRequest where
  appLink : String := ""
  deriving DecidableEq, Repr

/-- One message of the session port. The input-method, voice, volume and
audio-device fields are not read or written here; `others` keeps them encoded. -/
structure RemoteMessage where
  remoteConfigure : Option RemoteConfigure := none
  remoteSetActive : Option RemoteSetActive := none
  remoteError : Option RemoteError := none
  remotePingRequest : Option RemotePingRequest := none
  remotePingResponse : Option RemotePingResponse := none
  remoteKeyInject : Option RemoteKeyInject := none
  remoteStart : Option RemoteStart := none
  remoteAppLinkLaunchRequest : Option RemoteAppLinkLaunchRequest := none
  others : Bytes := []
  deriving DecidableEq, Repr

def RemoteKeyCode.keycodePower : Int32 := 26

def RemoteDirection.short : Int32 := 3

structure PairingRequest where
  serviceName : String := ""
  clientName : Option String := none
  deriving DecidableEq, Repr

structure PairingRequestAck where
  serverName : Option String := none
  deriving DecidableEq, Repr

structure Encoding where
  type : Int32 := 0
  symbolLength : UInt32 := 0
  deriving DecidableEq, Repr

structure Options where
  inputEncodings : List Encoding := []
  outputEncodings : List Encoding := []
  preferredRole : Option Int32 := none
  deriving DecidableEq, Repr

structure Configuration where
  encoding : Encoding := {}
  clientRole : Int32 := 0
  deriving DecidableEq, Repr

structure ConfigurationAck where
  deriving DecidableEq, Repr

structure Secret where
  secret : Bytes := []
  deriving DecidableEq, Repr

structure SecretAck where
  secret : Bytes := []
  deriving DecidableEq, Repr

structure OuterMessage where
  protocolVersion : UInt32 := 1
  status : Int32 := 200
  pairingRequest : Option PairingRequest := none
  pairingRequestAck : Option PairingRequestAck := none
  options : Option Options := none
  configuration : Option Configuration := none
  configurationAck : Option ConfigurationAck := none
  secret : Option Secret := none
  secretAck : Option SecretAck := none
  deriving DecidableEq, Repr

inductive Status
  | ok
  | error
  | badConfiguration
  | badSecret
  deriving DecidableEq, Repr

def Status.code : Status → Int32
  | .ok => 200
  | .error => 400
  | .badConfiguration => 401
  | .badSecret => 402

def Status.ofCode (n : Int32) : Option Status :=
  [Status.ok, .error, .badConfiguration, .badSecret].find? (fun s => s.code == n)

def Status.debug : Status → String
  | .ok => "Ok"
  | .error => "Error"
  | .badConfiguration => "BadConfiguration"
  | .badSecret => "BadSecret"

def EncodingType.hexadecimal : Int32 := 3

def RoleType.input : Int32 := 1

end AtvRemote.Messages
