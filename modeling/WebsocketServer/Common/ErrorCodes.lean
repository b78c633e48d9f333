import WebsocketServer.Library.CString
import WebsocketServer.Library.BigEndian

/- Error codes shared by the modules of the server, and the replies that carry them. -/
namespace error_codes

inductive Code where
  | INVALID_ARGUMENT | INTERNAL_ERROR | UNSUPPORTED_OPCODE | PROTOCOL_VIOLATION
  | WS_INVALID_FRAME | WS_CONTROL_FRAME_TOO_LARGE | WS_INVALID_CLOSE_CODE | WS_PAYLOAD_TOO_LARGE
  | FILE_STATE_NOT_FOUND | FILE_CHUNK_CRC_MISMATCH | FILE_CHUNK_OUT_OF_RANGE | FILE_SESSION_EXPIRED
  deriving DecidableEq, Repr

def Code.value : Code → UInt16
  | .INVALID_ARGUMENT => 0x1001
  | .INTERNAL_ERROR => 0x1002
  | .UNSUPPORTED_OPCODE => 0x1003
  | .PROTOCOL_VIOLATION => 0x1004
  | .WS_INVALID_FRAME => 0x2001
  | .WS_CONTROL_FRAME_TOO_LARGE => 0x2002
  | .WS_INVALID_CLOSE_CODE => 0x2003
  | .WS_PAYLOAD_TOO_LARGE => 0x2004
  | .FILE_STATE_NOT_FOUND => 0x3001
  | .FILE_CHUNK_CRC_MISMATCH => 0x3002
  | .FILE_CHUNK_OUT_OF_RANGE => 0x3003
  | .FILE_SESSION_EXPIRED => 0x3004

def toChinese : Code → String
  | .INVALID_ARGUMENT => "参数非法"
  | .INTERNAL_ERROR => "内部错误"
  | .UNSUPPORTED_OPCODE => "不支持的消息类型"
  | .PROTOCOL_VIOLATION => "协议违规"
  | .WS_INVALID_FRAME => "WebSocket帧非法"
  | .WS_CONTROL_FRAME_TOO_LARGE => "WebSocket控制帧超长"
  | .WS_INVALID_CLOSE_CODE => "WebSocket关闭码非法"
  | .WS_PAYLOAD_TOO_LARGE => "WebSocket负载过大"
  | .FILE_STATE_NOT_FOUND => "文件会话不存在"
  | .FILE_CHUNK_CRC_MISMATCH => "文件分片CRC校验失败"
  | .FILE_CHUNK_OUT_OF_RANGE => "文件分片序号越界"
  | .FILE_SESSION_EXPIRED => "文件会话已过期"

def buildTextError (code : Code) (detail : String) : Bytes :=
  CString.bytes "\x7b\"type\":\"error\",\"code\":" ++ CString.decimal code.value.toNat ++
    CString.bytes ",\"message\":\"" ++ CString.bytes (toChinese code) ++
    CString.bytes "\",\"detail\":\"" ++ CString.bytes detail ++ CString.bytes "\"\x7d"

/-- [0xEE][code_hi][code_lo][utf8_detail...] -/
def buildBinaryError (code : Code) (detail : String) : Bytes :=
  0xEE :: BigEndian.digits 2 code.value.toNat ++ CString.bytes detail

theorem value_injective {a b : Code} (same : a.value = b.value) : a = b := by
  cases a <;> cases b <;> first | rfl | contradiction

end error_codes
