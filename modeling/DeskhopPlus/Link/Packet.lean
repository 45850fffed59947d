import Mathlib.Data.List.Basic

/-!
# Packets between the boards

The inter-board packet of `packet.h`: a type, eight data bytes and an XOR checksum. `validatePacket`
is the test a board in config mode makes of a packet its host wrote, `handlerTypes` the dispatch
table of `process_packet`.
-/

namespace DeskhopPlus.Link

/-! The packet types of `packet_type_e`. -/

namespace PacketType

def keyboardReport : UInt8 := 1
def mouseReport : UInt8 := 2
def outputSelect : UInt8 := 3
def firmwareUpgrade : UInt8 := 4
def mouseZoom : UInt8 := 5
def kbdSetReport : UInt8 := 6
def switchLock : UInt8 := 7
def syncBorders : UInt8 := 8
def flashLed : UInt8 := 9
def wipeConfig : UInt8 := 10
def screensaver : UInt8 := 11
def heartbeat : UInt8 := 12
def gamingMode : UInt8 := 13
def consumerControl : UInt8 := 14
def systemControl : UInt8 := 15
def saveConfig : UInt8 := 18
def reboot : UInt8 := 19
def getVal : UInt8 := 20
def setVal : UInt8 := 21
def getAllVals : UInt8 := 22
def proxyPacket : UInt8 := 23
def requestByte : UInt8 := 24
def responseByte : UInt8 := 25
def channelStart : UInt8 := 26
def channelData : UInt8 := 27
def synthesizedKeyboardReport : UInt8 := 28
def cursorPlace : UInt8 := 29
def cursorPosition : UInt8 := 30
def cursorQuery : UInt8 := 31
def cursorQueryUnavailable : UInt8 := 32
def getCursorTrace : UInt8 := 33
def bootMouseMode : UInt8 := 35
def pairWindow : UInt8 := 36
def sleepSync : UInt8 := 38

end PacketType

open PacketType

/-- `PACKET_DATA_LENGTH`. -/
def packetDataLength : Nat := 8

/-- `RAW_PACKET_LENGTH`: the two start bytes, the type, the data and the checksum. -/
def rawPacketLength : Nat := 12

/-- `UART_QUEUE_LENGTH`. -/
def uartQueueLength : Nat := 256

/-- `uart_packet_t`. -/
structure Packet where
  type : UInt8
  data : List UInt8
  checksum : UInt8
  data_length : data.length = packetDataLength
  deriving DecidableEq

/-- `calc_checksum` over the data. -/
def calcChecksum (data : List UInt8) : UInt8 := data.foldl (· ^^^ ·) 0

/-- `verify_checksum`. -/
def verifyChecksum (packet : Packet) : Bool := calcChecksum packet.data = packet.checksum

/-- The packet behind the start bytes of a raw report. -/
def Packet.ofRaw (buffer : List UInt8) (h : buffer.length = rawPacketLength) : Packet where
  type := buffer.getD 2 0
  data := (buffer.drop 3).take packetDataLength
  checksum := buffer.getD 11 0
  data_length := by simp [h, packetDataLength, rawPacketLength]

/-- The packet `queue_packet` makes of a type and at most eight bytes, with the checksum
`write_raw_packet` gives it on the wire. -/
def Packet.build (type : UInt8) (data : List UInt8) (h : data.length ≤ packetDataLength) :
    Packet where
  type := type
  data := data ++ List.replicate (packetDataLength - data.length) 0
  checksum := calcChecksum (data ++ List.replicate (packetDataLength - data.length) 0)
  data_length := by simp only [List.length_append, List.length_replicate]; omega

/-- `ALLOWED_PACKETS` of `validate_packet`. -/
def allowedPackets : List UInt8 :=
  [flashLed, getVal, getAllVals, setVal, wipeConfig, saveConfig, reboot, proxyPacket,
   getCursorTrace]

/-- `validate_packet`: of a proxied packet the first data byte is the type that counts. -/
def validatePacket (packet : Packet) : Bool :=
  let packetType := if packet.type = proxyPacket then packet.data.headD 0 else packet.type
  allowedPackets.contains packetType

/-- The types of `uart_handler`, in its order. -/
def handlerTypes : List UInt8 :=
  [keyboardReport, synthesizedKeyboardReport, mouseReport, outputSelect, cursorPlace,
   cursorPosition, cursorQuery, cursorQueryUnavailable, mouseZoom, bootMouseMode, kbdSetReport,
   switchLock, syncBorders, flashLed, gamingMode, consumerControl, systemControl, screensaver,
   sleepSync, wipeConfig, pairWindow, saveConfig, reboot, getVal, getAllVals, setVal,
   getCursorTrace, requestByte, responseByte, firmwareUpgrade, channelStart, channelData,
   heartbeat, proxyPacket]

/-- `handle_proxy_msg`: the first data byte becomes the type of a packet to the other board. -/
def handleProxyMsg (packet : Packet) : Packet :=
  Packet.build (packet.data.headD 0) (packet.data.drop 1) (by
    rw [List.length_drop, packet.data_length]
    omega)

/-- The packets the handler of a dispatched packet queues for the other board. Of the handlers
`validate_packet` allows only the proxy queues one; what the others of the table queue is left
open. -/
def handlerSends (others : Packet → List Packet) (packet : Packet) : List Packet :=
  if packet.type = proxyPacket then [handleProxyMsg packet]
  else if allowedPackets.contains packet.type then []
  else others packet

end DeskhopPlus.Link
